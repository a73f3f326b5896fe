import Lets.Library.Firsts
import Lets.Ledger

set_option autoImplicit false

/-!
# Inbound transfer streams

The deduplication state of a target is spread over acknowledgement rows, gap rows and two
watermarks, which are advanced and pruned in batches.
-/

namespace Lets

open Library

variable {d : ℕ} {Hash : Type}

def TransferVoucher.key (voucher : TransferVoucher d) : String × ℕ :=
  (voucher.sourceWarden, voucher.sequence)

/-- The voucher that a call has delivered, with the acknowledgement it was answered with. -/
def Call.delivery? (call : Call d) : Option (TransferVoucher d × TransferAck) :=
  match call.operation, call.reply with
  | .acceptTransfer _ voucher, .ok (.ack ack) => some (voucher, ack)
  | _, _ => none

def deliveries (calls : List (Call d)) : List (TransferVoucher d × TransferAck) :=
  calls.filterMap Call.delivery?

def receivedFrom (source : String) (accepted : List (TransferVoucher d × TransferAck)) : Set ℕ :=
  {n | (source, n) ∈ accepted.map fun delivery => delivery.1.key}

section History

variable {calls : List (Call d)} {call : Call d}

theorem mem_deliveries_iff {voucher : TransferVoucher d} {ack : TransferAck} :
    (voucher, ack) ∈ deliveries calls ↔ ∃ call ∈ calls, ∃ identity,
      call.operation = .acceptTransfer identity voucher ∧ call.reply = .ok (.ack ack) := by
  unfold deliveries
  rw [List.mem_filterMap]
  refine exists_congr fun call => and_congr_right fun _ => ?_
  unfold Call.delivery?
  split
  · simp_all
  · rename_i hnone
    simp only [reduceCtorEq, false_iff, not_exists, not_and]
    exact fun identity hoperation => hnone identity voucher ack hoperation

theorem deliveries_concat_of_ne
    (h : ∀ identity voucher, call.operation ≠ .acceptTransfer identity voucher) :
    deliveries (calls ++ [call]) = deliveries calls := by
  have hnone : call.delivery? = none := by
    unfold Call.delivery?
    split
    · exact absurd (by assumption) (h _ _)
    · rfl
  unfold deliveries
  rw [List.filterMap_append, List.filterMap_cons, hnone, List.filterMap_nil, List.append_nil]

theorem deliveries_concat_error {e : LetsError} (h : call.reply = .error e) :
    deliveries (calls ++ [call]) = deliveries calls := by
  have hnone : call.delivery? = none := by
    unfold Call.delivery?
    rw [h]
    split <;> simp_all
  unfold deliveries
  rw [List.filterMap_append, List.filterMap_cons, hnone, List.filterMap_nil, List.append_nil]

theorem deliveries_concat {identity : IdentityContext} {voucher : TransferVoucher d}
    {ack : TransferAck} (hoperation : call.operation = .acceptTransfer identity voucher)
    (hreply : call.reply = .ok (.ack ack)) :
    deliveries (calls ++ [call]) = deliveries calls ++ [(voucher, ack)] := by
  have hsome : call.delivery? = some (voucher, ack) := by
    unfold Call.delivery?
    rw [hoperation, hreply]
  unfold deliveries
  rw [List.filterMap_append, List.filterMap_cons, hsome, List.filterMap_nil]

variable {accepted : List (TransferVoucher d × TransferAck)}
  {delivery : TransferVoucher d × TransferAck}

variable {source : String}

theorem mem_receivedFrom_iff {n : ℕ} : n ∈ receivedFrom source accepted ↔
    ∃ delivery ∈ accepted, delivery.1.key = (source, n) :=
  List.mem_map

theorem receivedFrom_concat : receivedFrom source (accepted ++ [delivery]) =
    if source = delivery.1.sourceWarden then
      insert delivery.1.sequence (receivedFrom source accepted)
    else receivedFrom source accepted := by
  ext n
  have hmem : n ∈ receivedFrom source (accepted ++ [delivery]) ↔
      n ∈ receivedFrom source accepted ∨ (source, n) = delivery.1.key := by
    change (source, n) ∈ (accepted ++ [delivery]).map _ ↔ _
    rw [List.map_append, List.mem_append, List.map_singleton, List.mem_singleton]
    rfl
  rw [hmem, TransferVoucher.key, Prod.mk.injEq]
  split_ifs with hsource
  · rw [Set.mem_insert_iff]
    tauto
  · tauto

theorem receivedFrom_concat_of_mem
    (hmem : delivery.1.sequence ∈ receivedFrom delivery.1.sourceWarden accepted) :
    receivedFrom source (accepted ++ [delivery]) = receivedFrom source accepted := by
  rw [receivedFrom_concat]
  split_ifs with hsource
  · exact Set.insert_eq_of_mem (hsource ▸ hmem)
  · rfl

end History

namespace Database

def stream (source : String) (db : Database d Hash) : InboundStream :=
  db.inboundStream source db.envelope.configEpoch

def gapsOf (source : String) (db : Database d Hash) : Set ℕ :=
  {n | (source, n) ∈ db.inboundGaps}

variable {db db' : Database d Hash} {source : String}

theorem stream_of_lookup {row : InboundStream} (h : db.inboundStreams.lookup source = some row) :
    db.stream source = row := by
  rw [stream, inboundStream, h]
  rfl

theorem stream_of_insert {row : InboundStream} (henvelope : db'.envelope = db.envelope)
    (hstreams : db'.inboundStreams = db.inboundStreams.insert source row) (other : String) :
    db'.stream other = if other = source then row else db.stream other := by
  unfold stream inboundStream
  rw [hstreams, henvelope, Table.lookup_insert_eq]
  split_ifs <;> rfl

theorem mem_gapsOf_advance (watermark n : ℕ) (other : String) :
    n ∈ (db.advanceInboundGapPrefix source watermark).1.gapsOf other ↔ n ∈ db.gapsOf other ∧
      ¬(other = source ∧ watermark < n ∧ n ≤ (db.advanceInboundGapPrefix source watermark).2) := by
  have hmem := Table.mem_filterRows_iff (t := db.inboundGaps) (k := (other, n))
    (p := fun key => decide ¬(key.1 = source ∧ watermark < key.2 ∧
      key.2 ≤ (db.advanceInboundGapPrefix source watermark).2))
  rwa [decide_eq_true_iff] at hmem

variable {watermark : ℕ}

theorem window_advance {received : Set ℕ} (h : Window received watermark (db.gapsOf source)) :
    Window received (db.advanceInboundGapPrefix source watermark).2
      ((db.advanceInboundGapPrefix source watermark).1.gapsOf source) := by
  have hgaps : ∀ n, watermark < n → n ≤ (db.advanceInboundGapPrefix source watermark).2 →
      n ∈ db.gapsOf source := by
    intro n hlt hle
    obtain ⟨⟨other, m⟩, row, hrow, hp, rfl⟩ :=
      Table.exists_of_mem_batch (mem_of_le_advancePrefix hlt hle)
    obtain ⟨rfl, _⟩ := of_decide_eq_true hp
    exact Table.mem_of_lookup hrow
  have hwindow := h.advance (le_advancePrefix _ _) hgaps
  refine ⟨hwindow.covered, fun n => Iff.trans ?_ (hwindow.gaps_iff n)⟩
  rw [mem_gapsOf_advance]
  exact and_congr_right fun _ => not_congr (and_iff_right rfl)

theorem gapsOf_advance_of_ne {other : String} (hne : other ≠ source) :
    (db.advanceInboundGapPrefix source watermark).1.gapsOf other = db.gapsOf other := by
  ext n
  rw [mem_gapsOf_advance]
  tauto

theorem advance_le (db : Database d Hash) (source : String) (watermark : ℕ) :
    watermark ≤ (db.advanceInboundGapPrefix source watermark).2 :=
  le_advancePrefix _ _

theorem advance_eq {received : Set ℕ} {m : ℕ} (h : Window received watermark (db.gapsOf source))
    (hreaches : Reaches received m) :
    (db.advanceInboundGapPrefix source watermark).2 =
      watermark + min maintenanceRowBatch (m - watermark) := by
  have hmem : ∀ n, n ∈ ((db.inboundGaps.filterRows fun key _ =>
      key.1 = source ∧ watermark < key.2).entries.map fun e => e.1.2).insertionSort (· ≤ ·) ↔
      n ∈ received ∧ watermark < n := by
    intro n
    rw [← h.gaps_iff]
    refine (Table.mem_sorted_iff (t := db.inboundGaps) (g := fun key _ => key.2)).trans ?_
    constructor
    · rintro ⟨⟨other, m⟩, row, hrow, hp, rfl⟩
      obtain ⟨rfl, _⟩ := of_decide_eq_true hp
      exact Table.mem_of_lookup hrow
    · intro hn
      obtain ⟨row, hrow⟩ := Table.mem_iff_lookup.mp hn
      exact ⟨(source, n), row, hrow, decide_eq_true ⟨rfl, ((h.gaps_iff n).mp hn).2⟩, rfl⟩
  have hsorted := Table.pairwise_sorted (t := db.inboundGaps) (g := fun key _ => key.2)
    (p := fun key _ => key.1 = source ∧ watermark < key.2) fun key key' _ _ _ _ hp hp' heq =>
      Prod.ext ((of_decide_eq_true hp).1.trans (of_decide_eq_true hp').1.symm) heq
  refine advancePrefix_take maintenanceRowBatch hsorted (hreaches.le h.covered)
    (fun n hn => ((hmem n).mp hn).2) (fun n hlt hle => (hmem n).mpr ⟨?_, hlt⟩)
    fun hn => hreaches.missing ((hmem _).mp hn).1
  exact hreaches.covered n (by omega) hle

end Database

namespace WardenService

/-- The inbound side of a database represents the given deliveries. -/
structure Streams (svc : WardenService d Hash) (accepted : List (TransferVoucher d × TransferAck))
    (db : Database d Hash) : Prop where
  window : ∀ source, Window (receivedFrom source accepted) (db.stream source).contiguousThrough
    (db.gapsOf source)
  compacted : ∀ source, (db.stream source).compactedThrough ≤ (db.stream source).contiguousThrough
  checkpointed : ∀ source, (db.stream source).compactedThrough = 0 ∨
    (db.stream source).checkpointPayload ≠ none
  opened : ∀ delivery ∈ accepted, delivery.1.sourceWarden ∈ db.inboundStreams
  seen : ∀ delivery ∈ accepted,
    delivery.1.sequence ≤ (db.stream delivery.1.sourceWarden).highestSeen
  acked : ∀ delivery ∈ accepted,
    (db.stream delivery.1.sourceWarden).compactedThrough < delivery.1.sequence →
      db.inboundAcks.lookup delivery.1.key =
        some ⟨svc.recordDigest (.voucher delivery.1), delivery.2⟩
  acks : ∀ key row, db.inboundAcks.lookup key = some row → ∃ delivery ∈ accepted,
    delivery.1.key = key ∧ row = ⟨svc.recordDigest (.voucher delivery.1), delivery.2⟩
  unique : ∀ delivery ∈ accepted, ∀ delivery' ∈ accepted, delivery.1.key = delivery'.1.key →
    svc.recordDigest (.voucher delivery.1) = svc.recordDigest (.voucher delivery'.1) ∧
      delivery.2 = delivery'.2
  /-- What has been transferred in is one amount for every sequence accepted. -/
  credited : ∀ i, db.transferredIn i =
    ((firsts (fun delivery => delivery.1.key) accepted).map fun delivery => delivery.1.amount i).sum

namespace Streams

variable {svc : WardenService d Hash} {accepted : List (TransferVoucher d × TransferAck)}
  {clock : Reading} {voucher : TransferVoucher d} {db db' : Database d Hash} {out : Response d}

theorem genesis (svc : WardenService d Hash) (envelope : Envelope d) :
    Streams svc [] (.genesis svc.wardenId svc.keyId envelope) where
  window _ := ⟨fun _ hpos hle => absurd hpos (Nat.not_lt.mpr hle), fun _ => iff_of_false nofun nofun⟩
  compacted _ := le_rfl
  checkpointed _ := .inl rfl
  opened := by simp
  seen := by simp
  acked := by simp
  acks := fun _ _ h => by cases h
  unique := by simp
  credited _ := rfl

theorem frame (h : Streams svc accepted db) (hfixed : db'.fixed = db.fixed)
    (hinbound : db'.inbound = db.inbound) : Streams svc accepted db' := by
  have hstreams : db'.inboundStreams = db.inboundStreams := congrArg Prod.fst hinbound
  have hgaps : db'.inboundGaps = db.inboundGaps := congrArg (fun x => x.2.1) hinbound
  have hacks : db'.inboundAcks = db.inboundAcks := congrArg (fun x => x.2.2.1) hinbound
  have hin : db'.transferredIn = db.transferredIn := congrArg (fun x => x.2.2.2) hinbound
  have henvelope : db'.envelope = db.envelope := congrArg (fun x => x.2.2) hfixed
  have hstream : ∀ source, db'.stream source = db.stream source := by
    intro source
    unfold Database.stream Database.inboundStream
    rw [hstreams, henvelope]
  have hgapsOf : ∀ source, db'.gapsOf source = db.gapsOf source := by
    intro source
    unfold Database.gapsOf
    rw [hgaps]
  exact {
    window := fun source => by rw [hstream, hgapsOf]; exact h.window source
    compacted := fun source => by rw [hstream]; exact h.compacted source
    checkpointed := fun source => by rw [hstream]; exact h.checkpointed source
    opened := by rw [hstreams]; exact h.opened
    seen := fun delivery hmem => by rw [hstream]; exact h.seen delivery hmem
    acked := fun delivery hmem => by rw [hstream, hacks]; exact h.acked delivery hmem
    acks := by rw [hacks]; exact h.acks
    unique := h.unique
    credited := by rw [hin]; exact h.credited }

theorem contiguous_le_highestSeen (h : Streams svc accepted db) {source : String} {watermark : ℕ}
    {gaps : Set ℕ} (hwindow : Window (receivedFrom source accepted) watermark gaps) :
    watermark ≤ (db.stream source).highestSeen := by
  rcases Nat.eq_zero_or_pos watermark with hzero | hpos
  · omega
  · obtain ⟨delivery, hmem, hkey⟩ :=
      mem_receivedFrom_iff.mp (hwindow.covered watermark hpos le_rfl)
    obtain ⟨rfl, rfl⟩ := Prod.mk.inj hkey
    exact h.seen delivery hmem

theorem notReceived (h : Streams svc accepted db)
    (hack : db.inboundAcks.lookup voucher.key = none)
    (habove : (db.stream voucher.sourceWarden).contiguousThrough < voucher.sequence) :
    voucher.sequence ∉ receivedFrom voucher.sourceWarden accepted := by
  intro hmem
  obtain ⟨delivery, hdelivery, hkey⟩ := mem_receivedFrom_iff.mp hmem
  obtain ⟨hsource, hsequence⟩ := Prod.mk.inj hkey
  have hcompacted := h.compacted voucher.sourceWarden
  have hacked := h.acked delivery hdelivery (by rw [hsource, hsequence]; omega)
  have hkey' : delivery.1.key = voucher.key := hkey
  rw [hkey', hack] at hacked
  exact absurd hacked (by simp)

theorem stream_of_redelivered (done : Redelivered svc clock voucher db db' out) (source : String) :
    db'.stream source = if source = voucher.sourceWarden then
      { done.stream with contiguousThrough :=
        (db.advanceInboundGapPrefix voucher.sourceWarden done.stream.contiguousThrough).2 }
      else db.stream source := by
  have hstream := Database.stream_of_lookup done.stream_eq
  have hle := db.advance_le voucher.sourceWarden done.stream.contiguousThrough
  have henvelope : db'.envelope = db.envelope := by rw [done.result]; rfl
  have hstreams := congrArg Database.inboundStreams done.result
  by_cases hmoved : done.stream.contiguousThrough <
      (db.advanceInboundGapPrefix voucher.sourceWarden done.stream.contiguousThrough).2
  · exact Database.stream_of_insert henvelope (hstreams.trans (if_pos hmoved)) source
  · have hsame : db'.inboundStreams = db.inboundStreams := hstreams.trans (if_neg hmoved)
    have heq : (db.advanceInboundGapPrefix voucher.sourceWarden
        done.stream.contiguousThrough).2 = done.stream.contiguousThrough := by omega
    rw [heq]
    have hkept : db'.stream source = db.stream source := by
      unfold Database.stream Database.inboundStream
      rw [hsame, henvelope]
    split_ifs with hs
    · rw [hkept, hs, hstream]
    · exact hkept

section

variable (h : Streams svc accepted db)

include h

theorem redelivered (done : Redelivered svc clock voucher db db' out) :
    Streams svc (accepted ++ [(voucher, done.existing.ackPayload)]) db' := by
  obtain ⟨first, hfirst, hkey, hrow⟩ := h.acks _ _ done.existing_eq
  have hkey' : first.1.key = voucher.key := hkey
  obtain ⟨hsource, hsequence⟩ := Prod.mk.inj hkey
  have hdigest : svc.recordDigest (.voucher first.1) = svc.recordDigest (.voucher voucher) := by
    rw [← done.digest_eq, hrow]
  have hack : first.2 = done.existing.ackPayload := by rw [hrow]
  have hreceived : ∀ source, receivedFrom source (accepted ++ [(voucher, done.existing.ackPayload)]) =
      receivedFrom source accepted := fun source =>
    receivedFrom_concat_of_mem (mem_receivedFrom_iff.mpr ⟨first, hfirst, hkey⟩)
  have hstream := Database.stream_of_lookup done.stream_eq
  have hstream' := stream_of_redelivered done
  have hgaps : ∀ source, db'.gapsOf source = (db.advanceInboundGapPrefix voucher.sourceWarden
      done.stream.contiguousThrough).1.gapsOf source := by
    intro source
    unfold Database.gapsOf
    rw [congrArg Database.inboundGaps done.result]
  have hacks : db'.inboundAcks = db.inboundAcks := by rw [done.result]; rfl
  have hwindow := Database.window_advance (hstream ▸ h.window voucher.sourceWarden)
  have hcompacted : ∀ source, (db'.stream source).compactedThrough =
      (db.stream source).compactedThrough := by
    intro source
    rw [hstream']
    split_ifs with hs
    · rw [hs, hstream]
    · rfl
  have hseen : ∀ source, (db'.stream source).highestSeen = (db.stream source).highestSeen := by
    intro source
    rw [hstream']
    split_ifs with hs
    · rw [hs, hstream]
    · rfl
  constructor
  · intro source
    rw [hreceived, hgaps, hstream']
    split_ifs with hs
    · rw [hs]
      exact hwindow
    · rw [Database.gapsOf_advance_of_ne hs]
      exact h.window source
  · intro source
    rw [hcompacted, hstream']
    have hold := h.compacted source
    split_ifs with hs
    · have hle := db.advance_le voucher.sourceWarden done.stream.contiguousThrough
      rw [hs, hstream] at hold
      rw [hs, hstream]
      exact hold.trans hle
    · exact hold
  · intro source
    rw [hcompacted, hstream']
    have hold := h.checkpointed source
    split_ifs with hs
    · rw [hs, hstream] at hold
      rw [hs, hstream]
      exact hold
    · exact hold
  · intro delivery hmem
    have hopened : voucher.sourceWarden ∈ db.inboundStreams :=
      Table.mem_iff_lookup.mpr ⟨_, done.stream_eq⟩
    have hold : delivery.1.sourceWarden ∈ db.inboundStreams := by
      rcases List.mem_append.mp hmem with hmem | hmem
      · exact h.opened delivery hmem
      · rw [List.mem_singleton.mp hmem]
        exact hopened
    rw [done.result]
    change delivery.1.sourceWarden ∈ ite _ _ _
    split_ifs
    · exact (AList.mem_insert _).mpr (.inr hold)
    · exact hold
  · intro delivery hmem
    rw [hseen]
    rcases List.mem_append.mp hmem with hmem | hmem
    · exact h.seen delivery hmem
    · rw [List.mem_singleton.mp hmem, ← hsource, ← hsequence]
      exact h.seen first hfirst
  · intro delivery hmem hlt
    rw [hcompacted] at hlt
    rw [hacks]
    rcases List.mem_append.mp hmem with hmem | hmem
    · exact h.acked delivery hmem hlt
    · rw [List.mem_singleton.mp hmem]
      have hexisting := done.existing_eq
      rw [hrow, hdigest, hack] at hexisting
      exact hexisting
  · intro key row hlookup
    rw [hacks] at hlookup
    obtain ⟨delivery, hmem, hrest⟩ := h.acks key row hlookup
    exact ⟨delivery, List.mem_append_left _ hmem, hrest⟩
  · -- the new delivery agrees with the first one of its sequence, and so with all of them
    have hsame : ∀ delivery ∈ accepted ++ [(voucher, done.existing.ackPayload)],
        ∃ old ∈ accepted, old.1.key = delivery.1.key ∧
          svc.recordDigest (.voucher old.1) = svc.recordDigest (.voucher delivery.1) ∧
          old.2 = delivery.2 := by
      intro delivery hmem
      rcases List.mem_append.mp hmem with hmem | hmem
      · exact ⟨delivery, hmem, rfl, rfl, rfl⟩
      · rw [List.mem_singleton.mp hmem]
        exact ⟨first, hfirst, hkey', hdigest, hack⟩
    intro delivery hmem delivery' hmem' hkeys
    obtain ⟨old, hold, hk, hd, ha⟩ := hsame delivery hmem
    obtain ⟨old', hold', hk', hd', ha'⟩ := hsame delivery' hmem'
    rw [← hd, ← ha, ← hd', ← ha']
    exact h.unique old hold old' hold' (by rw [hk, hk', hkeys])
  · intro i
    have hin : db'.transferredIn = db.transferredIn := by rw [done.result]; rfl
    have hmem : voucher.key ∈ (firsts (fun delivery => delivery.1.key) accepted).map
        fun delivery => delivery.1.key :=
      (mem_map_firsts _).mpr (List.mem_map.mpr ⟨first, hfirst, hkey'⟩)
    rw [hin, firsts_concat, if_pos hmem]
    exact h.credited i

theorem window_arrives {gaps : Table (String × ℕ) ℕ} {contiguous : ℕ} (ack : TransferAck)
    (hnew : voucher.sequence ∉ receivedFrom voucher.sourceWarden accepted)
    (harrives : Arrives voucher.sourceWarden voucher.sequence clock.nowNs
      (db.stream voucher.sourceWarden) db gaps contiguous)
    (source : String) : Window (receivedFrom source (accepted ++ [(voucher, ack)]))
      (if source = voucher.sourceWarden then contiguous
        else (db.stream source).contiguousThrough)
      {n | (source, n) ∈ gaps} := by
  have hwindow := h.window source
  rw [receivedFrom_concat]
  cases harrives with
  | gap missing new =>
    by_cases hs : source = voucher.sourceWarden
    · subst hs
      rw [if_pos rfl, if_pos rfl]
      convert hwindow.gap (n := voucher.sequence) (by omega) using 1
      ext n
      change (voucher.sourceWarden, n) ∈ AList.insert _ _ _ ↔ _
      rw [AList.mem_insert, Prod.mk.injEq, Set.mem_insert_iff]
      exact or_congr (and_iff_right rfl) Iff.rfl
    · rw [if_neg hs, if_neg hs]
      convert hwindow using 1
      ext n
      change (source, n) ∈ AList.insert _ _ _ ↔ _
      rw [AList.mem_insert, Prod.mk.injEq]
      exact or_iff_right fun heq => hs heq.1
  | next consecutive =>
    by_cases hs : source = voucher.sourceWarden
    · subst hs
      rw [if_pos rfl, if_pos rfl]
      rw [consecutive] at hnew ⊢
      exact Database.window_advance (hwindow.next hnew)
    · rw [if_neg hs, if_neg hs]
      have hgaps : (db.advanceInboundGapPrefix voucher.sourceWarden voucher.sequence).1.gapsOf
        source = db.gapsOf source := Database.gapsOf_advance_of_ne hs
      rw [← hgaps] at hwindow
      exact hwindow

theorem credit (hepoch : voucher.configEpoch = db.envelope.configEpoch)
    (done : Credited svc clock voucher db db' out) :
    Streams svc (accepted ++ [(voucher, done.ack)]) db' := by
  have hopen : db.inboundStream voucher.sourceWarden voucher.configEpoch =
      db.stream voucher.sourceWarden := by
    rw [hepoch]
    rfl
  have habove : (db.stream voucher.sourceWarden).contiguousThrough < voucher.sequence :=
    hopen ▸ done.above
  have hnew := h.notReceived done.notAcked habove
  have hstreams := congrArg Database.inboundStreams done.result
  have hstream' : ∀ source, db'.stream source = if source = voucher.sourceWarden then
      { db.stream voucher.sourceWarden with
        contiguousThrough := done.contiguous
        highestSeen := max (db.stream voucher.sourceWarden).highestSeen voucher.sequence }
      else db.stream source := by
    intro source
    have henvelope : db'.envelope = db.envelope := by rw [done.result]; rfl
    rw [Database.stream_of_insert henvelope hstreams source, hopen]
  have hacks := congrArg Database.inboundAcks done.result
  have hok := done.stream_ok
  rw [hopen] at hok
  constructor
  · intro source
    have harrives := done.arrives
    rw [hopen] at harrives
    have hwindow := h.window_arrives done.ack hnew harrives source
    have hgaps : db'.gapsOf source = {n | (source, n) ∈ done.gaps} := by
      unfold Database.gapsOf
      rw [congrArg Database.inboundGaps done.result]
    rw [hgaps, hstream']
    split_ifs with hs
    · rwa [if_pos hs] at hwindow
    · rwa [if_neg hs] at hwindow
  · intro source
    rw [hstream']
    split_ifs with hs
    · exact hok.2.1
    · exact h.compacted source
  · intro source
    rw [hstream']
    split_ifs with hs
    · exact hok.2.2
    · exact h.checkpointed source
  · intro delivery hmem
    rw [hstreams]
    refine (AList.mem_insert _).mpr ?_
    rcases List.mem_append.mp hmem with hmem | hmem
    · exact .inr (h.opened delivery hmem)
    · rw [List.mem_singleton.mp hmem]
      exact .inl rfl
  · intro delivery hmem
    rw [hstream']
    rcases List.mem_append.mp hmem with hmem | hmem
    · have hold := h.seen delivery hmem
      split_ifs with hs
      · rw [hs] at hold
        exact le_max_of_le_left hold
      · exact hold
    · rw [List.mem_singleton.mp hmem, if_pos rfl]
      exact le_max_right _ _
  · intro delivery hmem hlt
    rw [hacks]
    rcases List.mem_append.mp hmem with hmem | hmem
    · have hcompacted : (db'.stream delivery.1.sourceWarden).compactedThrough =
          (db.stream delivery.1.sourceWarden).compactedThrough := by
        rw [hstream']
        split_ifs with hs
        · rw [hs]
        · rfl
      rw [hcompacted] at hlt
      refine Table.lookup_insert_of_new ?_ (h.acked delivery hmem hlt)
      rw [Table.mem_iff_lookup, done.notAcked]
      simp
    · rw [List.mem_singleton.mp hmem]
      exact AList.lookup_insert _
  · intro key row hlookup
    rw [hacks, Table.lookup_insert_eq] at hlookup
    split_ifs at hlookup with hkey
    · exact ⟨(voucher, done.ack), List.mem_concat_self, hkey.symm,
        (Option.some.inj hlookup).symm⟩
    · obtain ⟨delivery, hmem, hrest⟩ := h.acks key row hlookup
      exact ⟨delivery, List.mem_append_left _ hmem, hrest⟩
  · have hfresh : ∀ delivery ∈ accepted, delivery.1.key ≠ voucher.key := fun delivery hmem hkey =>
      hnew (mem_receivedFrom_iff.mpr ⟨delivery, hmem, hkey⟩)
    intro delivery hmem delivery' hmem' hkeys
    rw [List.mem_append, List.mem_singleton] at hmem hmem'
    rcases hmem with hmem | rfl <;> rcases hmem' with hmem' | rfl
    · exact h.unique delivery hmem delivery' hmem' hkeys
    · exact absurd hkeys (hfresh delivery hmem)
    · exact absurd hkeys.symm (hfresh delivery' hmem')
    · exact ⟨rfl, rfl⟩
  · intro i
    have hin : db'.transferredIn = done.transferredIn := congrArg Database.transferredIn done.result
    have hnotMem : voucher.key ∉ (firsts (fun delivery => delivery.1.key) accepted).map
        fun delivery => delivery.1.key := fun hmem =>
      hnew ((mem_map_firsts _).mp hmem)
    rw [hin, firsts_concat, if_neg hnotMem, List.map_append, List.sum_append, ← h.credited,
      done.transferredIn_eq, List.map_singleton, List.sum_singleton]

theorem prune (keep : String × ℕ → Bool)
    (hcovered : ∀ key, keep key = false → key.2 ≤ (db'.stream key.1).compactedThrough)
    (hcompacted : ∀ source, (db.stream source).compactedThrough ≤ (db'.stream source).compactedThrough)
    (hreached : ∀ source, (db'.stream source).compactedThrough ≤ (db'.stream source).contiguousThrough)
    (hcontiguous : ∀ source, (db'.stream source).contiguousThrough =
      (db.stream source).contiguousThrough)
    (hseen : ∀ source, (db'.stream source).highestSeen = (db.stream source).highestSeen)
    (hcheckpointed : ∀ source, (db'.stream source).compactedThrough = 0 ∨
      (db'.stream source).checkpointPayload ≠ none)
    (hopened : ∀ source, source ∈ db.inboundStreams → source ∈ db'.inboundStreams)
    (hgaps : db'.inboundGaps = db.inboundGaps) (hin : db'.transferredIn = db.transferredIn)
    (hacks : db'.inboundAcks = db.inboundAcks.filterRows fun key _ => keep key) :
    Streams svc accepted db' where
  window source := by
    unfold Database.gapsOf
    rw [hcontiguous, hgaps]
    exact h.window source
  compacted := hreached
  checkpointed := hcheckpointed
  opened delivery hmem := hopened _ (h.opened delivery hmem)
  seen delivery hmem := by
    rw [hseen]
    exact h.seen delivery hmem
  acked delivery hmem hlt := by
    have hold := h.acked delivery hmem ((hcompacted _).trans_lt hlt)
    have hkeep : keep delivery.1.key = true := by
      by_contra hdrop
      have hle := hcovered delivery.1.key (Bool.eq_false_iff.mpr hdrop)
      exact absurd hle (Nat.not_le.mpr hlt)
    rw [hacks, Table.lookup_filterRows, Option.filter_eq_some_iff]
    exact ⟨hold, hkeep⟩
  acks key row hlookup := by
    rw [hacks, Table.lookup_filterRows, Option.filter_eq_some_iff] at hlookup
    exact h.acks key row hlookup.1
  unique := h.unique
  credited := by
    rw [hin]
    exact h.credited

theorem checkpoint {checkpoint : TransferCheckpoint}
    (done : CheckpointIngested svc clock checkpoint db db') : Streams svc accepted db' := by
  have hstream := Database.stream_of_lookup done.stream_eq
  have henvelope : db'.envelope = db.envelope := by rw [done.result]; rfl
  have hstreams := congrArg Database.inboundStreams done.result
  -- in either case the compacted watermark of the source is now that of the checkpoint
  have hcases : (∀ source, db'.stream source = db.stream source) ∧
        checkpoint.throughSequence = done.stream.compactedThrough ∨
      ∀ source, db'.stream source = if source = checkpoint.sourceWarden then
        { done.stream with
          compactedThrough := checkpoint.throughSequence, checkpointPayload := some checkpoint }
        else db.stream source := by
    rcases done.streams_eq with ⟨hsame, hthrough⟩ | hinsert
    · refine .inl ⟨fun source => ?_, hthrough⟩
      unfold Database.stream Database.inboundStream
      rw [hstreams, henvelope]
      exact congrArg (fun t => (AList.lookup source t).getD _) hsame
    · exact .inr (Database.stream_of_insert henvelope (hstreams.trans hinsert))
  have hmoved : ∀ source, (db'.stream source).contiguousThrough =
        (db.stream source).contiguousThrough ∧
      (db'.stream source).highestSeen = (db.stream source).highestSeen ∧
      (db'.stream source).compactedThrough = (if source = checkpoint.sourceWarden then
        checkpoint.throughSequence else (db.stream source).compactedThrough) ∧
      ((db'.stream source).compactedThrough = 0 ∨
        (db'.stream source).checkpointPayload ≠ none) := by
    intro source
    have hold := h.checkpointed source
    rcases hcases with ⟨hsame, hthrough⟩ | hset
    · rw [hsame]
      refine ⟨rfl, rfl, ?_, hold⟩
      split_ifs with hs
      · rw [hs, hstream, hthrough]
      · rfl
    · rw [hset]
      split_ifs with hs
      · rw [hs, hstream]
        exact ⟨rfl, rfl, rfl, .inr (by simp)⟩
      · exact ⟨rfl, rfl, rfl, hold⟩
  have hforward := done.forward
  have hreached := done.reached
  rw [← hstream] at hforward hreached
  refine h.prune (fun key => decide ¬(key.1 = checkpoint.sourceWarden ∧
      key.2 ∈ db.ackBatch checkpoint.sourceWarden checkpoint.throughSequence))
    ?_ ?_ ?_ (fun source => (hmoved source).1) (fun source => (hmoved source).2.1)
    (fun source => (hmoved source).2.2.2) ?_ ?_ ?_ (congrArg Database.inboundAcks done.result)
  · intro key hkey
    obtain ⟨hsource, hmem⟩ := not_not.mp (of_decide_eq_false hkey)
    obtain ⟨key', row, _, hp, heq⟩ := Table.exists_of_mem_batch hmem
    rw [(hmoved key.1).2.2.1, if_pos hsource, ← heq]
    exact (of_decide_eq_true hp).2
  · intro source
    rw [(hmoved source).2.2.1]
    split_ifs with hs
    · rw [hs]
      exact hforward
    · exact le_rfl
  · intro source
    rw [(hmoved source).1, (hmoved source).2.2.1]
    split_ifs with hs
    · rw [hs]
      exact hreached
    · exact h.compacted source
  · intro source hopened
    rw [hstreams]
    rcases done.streams_eq with ⟨hsame, _⟩ | hinsert
    · exact hsame ▸ hopened
    · refine hinsert ▸ (AList.mem_insert _).mpr (.inr hopened)
  · rw [done.result]
    rfl
  · rw [done.result]
    rfl

end

theorem step {calls : List (Call d)} {call : Call d} (h : Streams svc (deliveries calls) db)
    (hreply : call.reply = .ok out) (heffect : Effect svc call.clock db call.operation db' out) :
    Streams svc (deliveries (calls ++ [call])) db' := by
  rcases heffect.inbound_cases with ⟨hsame, hne⟩ | ⟨identity, voucher, hoperation, hshown, hdone⟩ |
    ⟨identity, checkpoint, hoperation, ⟨done⟩⟩ | ⟨batchSize, keep, hoperation, hcovered, hpruned⟩
  · rw [deliveries_concat_of_ne hne]
    exact h.frame heffect.fixed_eq hsame
  · rcases hdone with ⟨⟨done⟩⟩ | ⟨⟨done⟩⟩
    · rw [deliveries_concat hoperation (hreply.trans (congrArg Except.ok done.out_eq))]
      exact h.redelivered done
    · rw [deliveries_concat hoperation (hreply.trans (congrArg Except.ok done.out_eq))]
      exact h.credit hshown.epoch done
  · rw [deliveries_concat_of_ne (by rw [hoperation]; exact (by simp))]
    exact h.checkpoint done
  · rw [deliveries_concat_of_ne (by rw [hoperation]; exact (by simp))]
    have hstreams : db'.inboundStreams = db.inboundStreams := congrArg Prod.fst hpruned
    have henvelope : db'.envelope = db.envelope := congrArg (fun x => x.2.2) heffect.fixed_eq
    have hstream : ∀ source, db'.stream source = db.stream source := by
      intro source
      unfold Database.stream Database.inboundStream
      rw [hstreams, henvelope]
    refine h.prune keep (fun key hkey => ?_) (fun source => (hstream source).symm ▸ le_rfl)
      (fun source => (hstream source).symm ▸ h.compacted source) (fun source => by rw [hstream])
      (fun source => by rw [hstream]) (fun source => (hstream source).symm ▸ h.checkpointed source)
      (fun source hsource => hstreams ▸ hsource) (congrArg (fun x => x.2.1) hpruned)
      (congrArg (fun x => x.2.2.2) hpruned) (congrArg (fun x => x.2.2.1) hpruned)
    obtain ⟨stream, hlookup, hle⟩ := hcovered key hkey
    rw [hstream, Database.stream_of_lookup hlookup]
    exact hle

end Streams

end WardenService

end Lets
