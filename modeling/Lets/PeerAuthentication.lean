import Lets.Library.Framing
import Lets.Library.ReplayWindow
import Lets.Library.Runs
import Lets.PeerReplay
import Lets.Sample
import Lets.Wire

set_option autoImplicit false

/-!
# Authenticated peer requests

A peer signs each request over a nonce and a timestamp.
-/

namespace Lets

open Library

variable {d : ℕ} {Hash : Type}

/-! ### The legacy replay store -/

def legacyReplayGcBatch : ℕ := 128

structure LegacyReplayRow where
  timestampS : ℕ
  expiresAtS : ℕ
  deriving DecidableEq

/-- `SQLitePeerReplayStore`: the clock floor and the claimed nonces. -/
structure LegacyReplayStore where
  clockFloorS : Option ℕ
  rows : Table (String × String × String) LegacyReplayRow

/-- A batch of the rows that expired before `nowS` is deleted, the earliest first. -/
def deleteExpiredRows {ρ : Type} (expiresAtS : ρ → ℕ) (nowS count : ℕ)
    (rows : Table (String × String × String) ρ) : Table (String × String × String) ρ :=
  rows.deleteBatch
    (fun key row => toLex (expiresAtS row, toLex (key.1, toLex (key.2.1, key.2.2))))
    (fun _ row => expiresAtS row < nowS) count

namespace LegacyReplayStore

def initial : LegacyReplayStore := ⟨none, ∅⟩

def deleteExpired (nowS : ℕ) (store : LegacyReplayStore) :
    Table (String × String × String) LegacyReplayRow :=
  deleteExpiredRows LegacyReplayRow.expiresAtS nowS legacyReplayGcBatch store.rows

/-- `claim`: whether the nonce is new. -/
def claim (req : PeerRequest) (store : LegacyReplayStore) :
    Outcome (LegacyReplayStore × Bool) := do
  peerReplaySeconds req.timestampS "timestamp_s"
  peerReplaySeconds req.expiresAtS "expires_at_s"
  peerReplaySeconds req.nowS "now_s"
  peerReplaySeconds req.clockToleranceS "clock_tolerance_s"
  require (req.timestampS + req.clockToleranceS ≤ maxResource)
    (.validation "peer replay timestamp window exceeds signed 64-bit time")
  require (max req.timestampS req.nowS ≤ req.expiresAtS)
    (.validation "peer replay expiry precedes its acceptance window")
  require (∀ floor ∈ store.clockFloorS, floor ≤ req.nowS)
    (.clockUncertain "peer HTTP clock moved behind its durable replay floor")
  if ∃ floor ∈ store.clockFloorS, req.timestampS + req.clockToleranceS < floor then
    pure (store, false)
  else
    let key := (req.wardenId, req.keyId, req.nonce)
    let rows := store.deleteExpired req.nowS
    -- the primary key refuses a nonce that is still there, and the transaction is rolled back
    if key ∈ rows then pure (store, false)
    else pure (⟨some (nextFloorS store.clockFloorS req.nowS),
      rows.insert key ⟨req.timestampS, req.expiresAtS⟩⟩, true)

def prune (cutoff : ℕ) (store : LegacyReplayStore) : Outcome LegacyReplayStore := do
  require (cutoff ≤ maxResource)
    (.validation "peer replay prune time must be a non-negative signed 64-bit integer")
  require (∀ floor ∈ store.clockFloorS, floor ≤ cutoff)
    (.clockUncertain "peer HTTP clock moved behind its durable replay floor")
  pure
    { clockFloorS := some (nextFloorS store.clockFloorS cutoff)
      rows := store.deleteExpired cutoff }

/-- `snapshot`: what the import asks of the store, at `nowS`. -/
def snapshot [DecidableEq Hash] (artifactDigest : LegacyReplayStore → Hash) (nowS : ℕ)
    (expectedDigest : Hash) (store : LegacyReplayStore) :
    Outcome (LegacyImportRequest Hash) := do
  require (nowS ≤ maxResource) (.validation "legacy peer replay snapshot time is invalid")
  require (artifactDigest store = expectedDigest)
    (.validation "legacy peer replay artifact digest changed before import")
  require (∀ floor ∈ store.clockFloorS, floor ≤ nowS)
    (.clockUncertain "migration clock moved behind the legacy peer replay floor")
  pure
    { clockFloorS := store.clockFloorS
      snapshotDigest := expectedDigest
      activeClaimCount := (store.rows.filterRows fun _ row => nowS ≤ row.expiresAtS).entries.length
      nowS }

end LegacyReplayStore

/-! ### The authenticator -/

/-- A request as the server hands it over; header names are in lower case. -/
structure PeerHttpRequest where
  method : String
  headers : List (String × String)
  rawPath : Bytes
  queryString : Bytes
  body : Bytes

/-- What `canonical_peer_message` is over. -/
structure PeerMessage where
  method : String
  path : String
  contentDigest : String
  timestampS : ℕ
  nonce : String
  wardenId : String
  keyId : String
  deriving DecidableEq

structure PeerHeaders where
  wardenId : String
  keyId : String
  timestampS : ℕ
  nonce : String
  contentDigest : String
  signature : String
  deriving DecidableEq

structure PeerIdentity where
  wardenId : String
  keyId : String
  deriving DecidableEq

/-- `PeerMessageAuthenticator` without its replay store: the skew bound, the digest of bodies and the
trusted keys.  Verifying a signature may raise, which is `none`. -/
structure PeerAuthenticator where
  maxSkewS : ℕ
  peerBodyDigest : Bytes → String
  trustRegistry : String → String → Bytes → Bytes → Option Bool
  maxSkewS_pos : 0 < maxSkewS
  maxSkewS_le : maxSkewS ≤ maxResource

namespace PeerHttpRequest

def requiredSingleHeader (request : PeerHttpRequest) (name : String) : Outcome String :=
  match request.headers.filter (fun header => header.1 = name) with
  | [] => .error (.authentication ("required peer authentication header is missing: " ++ name))
  | [header] => .ok header.2
  | _ => .error (.authentication ("duplicate authentication header: " ++ name))

def decimal (text : String) : Option ℕ :=
  if text.toList ≠ [] ∧ text.toList.all Char.isDigit then
    some (text.toList.foldl (fun n c => n * 10 + (c.toNat - '0'.toNat)) 0)
  else none

def peerHeaders (request : PeerHttpRequest) : Outcome PeerHeaders := do
  let wardenId ← request.requiredSingleHeader "x-lets-warden-id"
  let keyId ← request.requiredSingleHeader "x-lets-key-id"
  let timestampText ← request.requiredSingleHeader "x-lets-timestamp"
  let nonce ← request.requiredSingleHeader "x-lets-nonce"
  let contentDigest ← request.requiredSingleHeader "x-lets-content-sha256"
  let signature ← request.requiredSingleHeader "x-lets-signature"
  let timestampS ← orError (decimal timestampText) (.authentication "peer timestamp is malformed")
  pure { wardenId, keyId, timestampS, nonce, contentDigest, signature }

def ascii (bytes : Bytes) : Outcome String := do
  require (bytes.all (· < 128)) (.authentication "peer request target must be ASCII encoded")
  pure (String.ofList (bytes.map fun byte => Char.ofNat byte.toNat))

def asgiRequestTarget (request : PeerHttpRequest) : Outcome String := do
  let target ← ascii request.rawPath
  let query ← ascii request.queryString
  pure (if request.queryString = [] then target else target ++ "?" ++ query)

end PeerHttpRequest

def PeerMessage.body (message : PeerMessage) : List (String × Json) :=
  [("type", .text "lets.peer-http-signature/v1"), ("method", .text message.method.toUpper),
    ("path", .text message.path), ("content_digest", .text message.contentDigest),
    ("timestamp_s", .number message.timestampS), ("nonce", .text message.nonce),
    ("warden_id", .text message.wardenId), ("key_id", .text message.keyId)]

def canonicalPeerMessage (message : PeerMessage) : Outcome Bytes := do
  require (message.method ≠ "" ∧ message.method.toList.all (fun c => c.toNat < 128))
    (.validation "peer HTTP method is invalid")
  require (message.path.startsWith "/" ∧ '#' ∉ message.path.toList)
    (.validation "peer HTTP target must be an absolute path without a fragment")
  require (message.contentDigest.startsWith "sha256:" ∧ message.contentDigest.length = 71)
    (.validation "peer content digest is malformed")
  require (message.timestampS ≤ maxResource) (.validation "peer timestamp must be an integer")
  let _ ← requireIdentifier "peer nonce" (.text message.nonce)
  let _ ← requireWardenId "peer warden_id" (.text message.wardenId)
  let _ ← requireKeyId "peer key_id" (.text message.keyId)
  canonicalJson (.object message.body)

namespace PeerAuthenticator

/-- `authenticate`, with the `claim` of a replay store. -/
def authenticate {σ : Type} (a : PeerAuthenticator) (claim : PeerRequest → σ → Outcome (σ × Bool))
    (nowS : ℤ) (request : PeerHttpRequest) (store : σ) : Outcome (σ × PeerIdentity) := do
  let headers ← request.peerHeaders
  require ((nowS - headers.timestampS).natAbs ≤ a.maxSkewS)
    (.authentication "peer timestamp is outside the accepted clock-skew window")
  require (16 ≤ headers.nonce.length ∧ headers.nonce.length ≤ 256)
    (.authentication "peer nonce has an invalid length")
  require (a.peerBodyDigest request.body = headers.contentDigest)
    (.signature "peer request body digest does not match its signed headers")
  let path ← request.asgiRequestTarget
  let message ← canonicalPeerMessage
    { method := request.method, path, contentDigest := headers.contentDigest
      timestampS := headers.timestampS, nonce := headers.nonce
      wardenId := headers.wardenId, keyId := headers.keyId }
  let valid ← orError ((b64urlDecode headers.signature).toOption.bind
      (a.trustRegistry headers.wardenId headers.keyId message))
    (.signature "peer request signature could not be verified")
  require (valid = true) (.signature "peer request signature is invalid or untrusted")
  -- the replay store takes no time before the epoch
  require (0 ≤ nowS) (.validation "peer replay now_s must be a non-negative integer")
  let (store, claimed) ← claim
    { wardenId := headers.wardenId
      keyId := headers.keyId
      nonce := headers.nonce
      timestampS := headers.timestampS
      expiresAtS := max nowS.toNat headers.timestampS + a.maxSkewS
      nowS := nowS.toNat
      clockToleranceS := a.maxSkewS } store
  require (claimed = true) (.replay "peer request nonce was already accepted")
  pure (store, ⟨headers.wardenId, headers.keyId⟩)

end PeerAuthenticator

abbrev PeerClaim := (String × String × String) × ℕ

def PeerHeaders.claim (headers : PeerHeaders) : PeerClaim :=
  ((headers.wardenId, headers.keyId, headers.nonce), headers.timestampS)

/-! ### The stores of one authenticator -/

/-- The two replay stores of a warden, and whether the core has taken over. -/
structure ReplayStores (d : ℕ) (Hash : Type) where
  legacy : LegacyReplayStore
  core : WardenStore d Hash
  migrated : Bool

/-- What happens to the stores.  A request is authenticated at two readings: the one that the
authenticator takes and the one that the core takes for its audit log. -/
inductive ReplayEvent (d : ℕ) (Hash : Type)
  | authenticate (clock : Reading) (nowS : ℤ) (request : PeerHttpRequest)
  | prune (cutoff : ℕ)
  | migrate (clock : Reading) (nowS : ℕ) (expectedDigest : Hash)
  | serve (clock : Reading) (operation : Operation d)

structure PeerServer (d : ℕ) (Hash : Type) where
  node : WardenNode d Hash
  authenticator : PeerAuthenticator
  artifactDigest : LegacyReplayStore → Hash

namespace PeerServer

variable [DecidableEq Hash] (server : PeerServer d Hash)

def next (stores : ReplayStores d Hash) :
    ReplayEvent d Hash → Outcome (ReplayStores d Hash × Option PeerClaim)
  | .authenticate clock nowS request => do
    let headers ← request.peerHeaders
    if stores.migrated then
      let (core, _) ← server.authenticator.authenticate (server.node.claimPeerRequest clock) nowS
        request stores.core
      pure ({ stores with core }, some headers.claim)
    else
      let (legacy, _) ← server.authenticator.authenticate LegacyReplayStore.claim nowS request
        stores.legacy
      pure ({ stores with legacy }, some headers.claim)
  | .prune cutoff => do
    let legacy ← stores.legacy.prune cutoff
    pure ({ stores with legacy }, none)
  | .migrate clock nowS expectedDigest => do
    let req ← stores.legacy.snapshot server.artifactDigest nowS expectedDigest
    let (core, _) ← server.node.importLegacyPeerReplay clock req stores.core
    pure ({ stores with core, migrated := true }, none)
  | .serve clock operation => do
    let (database, _) ← server.node.service.exec clock operation stores.core.database
    pure ({ stores with core := { stores.core with database } }, none)

/-- A history of the stores, from their creation; each event is labelled with the request it
accepted.  A warden without a legacy store begins with the core. -/
def system (envelope : Envelope d) (signingPublicKeySha256 databaseInstanceId : Hash) :
    System (ReplayStores d Hash) (ReplayEvent d Hash × Option PeerClaim) where
  Init stores := stores.legacy = .initial ∧
    stores.core = .genesis server.node.service.wardenId server.node.service.keyId envelope
      signingPublicKeySha256 databaseInstanceId server.node.service.zeroHash
  Step stores label stores' := server.next stores label.1 = .ok (stores', label.2) ∨
    (∃ error, server.next stores label.1 = .error error) ∧ label.2 = none ∧ stores' = stores

def play (stores : ReplayStores d Hash) :
    List (ReplayEvent d Hash) → List (ReplayEvent d Hash × Option PeerClaim) × ReplayStores d Hash
  | [] => ([], stores)
  | event :: events =>
    match server.next stores event with
    | .ok (stores', accepted) =>
      let (labels, last) := play stores' events
      ((event, accepted) :: labels, last)
    | .error _ =>
      let (labels, last) := play stores events
      ((event, none) :: labels, last)

end PeerServer

def acceptedRequests (labels : List (ReplayEvent d Hash × Option PeerClaim)) : List PeerClaim :=
  labels.filterMap Prod.snd

/-! ### What the stores remember -/

theorem le_nextFloorS (floor : Option ℕ) (nowS : ℕ) :
    nowS ≤ nextFloorS floor nowS ∧ ∀ f ∈ floor, f ≤ nextFloorS floor nowS := by
  cases floor with
  | none => exact ⟨le_rfl, (by simp)⟩
  | some f =>
    refine ⟨le_max_left _ _, ?_⟩
    rintro _ ⟨⟩
    exact le_max_right _ _

theorem nextFloorS_le {floor : Option ℕ} {nowS bound : ℕ} (hnow : nowS ≤ bound)
    (hfloor : ∀ f ∈ floor, f ≤ bound) : nextFloorS floor nowS ≤ bound := by
  cases floor with
  | none => exact hnow
  | some f => exact max_le hnow (hfloor f rfl)

def windowOf {ρ : Type} (expiresAtS : ρ → ℕ) (floor : Option ℕ)
    (rows : Table (String × String × String) ρ) : ReplayWindow (String × String × String) where
  floor := floor
  expiry key := (rows.lookup key).map expiresAtS

section Windows

variable {ρ : Type} {expiresAtS : ρ → ℕ} {floor : Option ℕ}
  {rows : Table (String × String × String) ρ} {key : String × String × String} {row : ρ}

theorem lookup_deleteExpiredRows (nowS count : ℕ) (h : rows.lookup key = some row) :
    (deleteExpiredRows expiresAtS nowS count rows).lookup key = some row ∨
      expiresAtS row < nowS := by
  refine (Table.lookup_deleteBatch_cases (fun key key' row row' heq => ?_) h).imp id fun hdeleted =>
    of_decide_eq_true hdeleted.2
  have hexpiry : expiresAtS row = expiresAtS row' := congrArg (fun x => (ofLex x).1) heq
  simp only [hexpiry]

theorem forgets_deleteExpiredRows (nowS count : ℕ) :
    (windowOf expiresAtS floor rows).Forgets (windowOf expiresAtS (some (nextFloorS floor nowS))
      (deleteExpiredRows expiresAtS nowS count rows)) where
  floor_kept f hf := ⟨_, rfl, (le_nextFloorS floor nowS).2 f hf⟩
  expired key expiry hexpiry := by
    obtain ⟨row, hrow, rfl⟩ := Option.map_eq_some_iff.mp hexpiry
    rcases lookup_deleteExpiredRows nowS count hrow with hkept | hlt
    · exact .inl (Option.map_eq_some_iff.mpr ⟨row, hkept, rfl⟩)
    · exact .inr ⟨_, rfl, hlt.trans_le (le_nextFloorS floor nowS).1⟩

theorem accepts_insert {nowS timestampS skew : ℕ} (count : ℕ)
    (hnew : key ∉ deleteExpiredRows expiresAtS nowS count rows)
    (hfloor : ∀ f ∈ floor, f ≤ timestampS + skew) (hnow : nowS ≤ timestampS + skew)
    (hrow : timestampS + skew ≤ expiresAtS row) :
    (windowOf expiresAtS floor rows).Accepts skew key timestampS
      (windowOf expiresAtS (some (nextFloorS floor nowS))
        ((deleteExpiredRows expiresAtS nowS count rows).insert key row)) where
  forgets := by
    refine ⟨_, forgets_deleteExpiredRows nowS count, ?_, rfl, fun key' hne => ?_⟩
    · exact congrArg (Option.map expiresAtS) (AList.lookup_eq_none.mpr hnew)
    · exact congrArg (Option.map expiresAtS) (AList.lookup_insert_ne hne)
  fresh := by
    rintro ⟨_, ⟨⟩, hlt⟩
    exact absurd hlt (not_lt.mpr (nextFloorS_le hnow hfloor))
  remembered := ⟨_, Option.mem_map_of_mem _ (AList.lookup_insert _), hrow⟩

end Windows

def LegacyReplayStore.window (store : LegacyReplayStore) :
    ReplayWindow (String × String × String) :=
  windowOf LegacyReplayRow.expiresAtS store.clockFloorS store.rows

def WardenStore.window (store : WardenStore d Hash) : ReplayWindow (String × String × String) :=
  windowOf PeerReplayRow.expiresAtS store.peerAuthority.clockFloorS store.peerReplay

namespace PeerRequest

def key (req : PeerRequest) : String × String × String := (req.wardenId, req.keyId, req.nonce)

structure InWindow (req : PeerRequest) : Prop where
  nowS_le : req.nowS ≤ req.timestampS + req.clockToleranceS
  le_expiresAtS : req.timestampS + req.clockToleranceS ≤ req.expiresAtS

end PeerRequest

theorem not_mem_of_not_mem_rows {ρ : Type} {expiresAtS : ρ → ℕ} {nowS count : ℕ}
    {rows : Table (String × String × String) ρ} {key : String × String × String}
    (h : key ∉ rows) : key ∉ deleteExpiredRows expiresAtS nowS count rows := by
  rw [← AList.lookup_eq_none] at h ⊢
  rw [deleteExpiredRows, Table.deleteBatch, Table.lookup_filterRows, h]
  rfl

theorem LegacyReplayStore.claim_accepts {req : PeerRequest} {store store' : LegacyReplayStore}
    (hwindow : req.InWindow) (h : claim req store = .ok (store', true)) :
    store.window.Accepts req.clockToleranceS req.key req.timestampS store'.window := by
  simp only [claim, peerReplaySeconds, bind_ok_iff, require_ok_iff, exists_unit_iff] at h
  obtain ⟨_, _, _, _, _, _, _, h⟩ := h
  split_ifs at h with hold hseen
  · cases h
  · cases h
  · simp only [pure_ok_iff, Prod.mk.injEq, and_true] at h
    subst h
    refine accepts_insert legacyReplayGcBatch hseen (fun f hf => ?_) hwindow.nowS_le
      hwindow.le_expiresAtS
    exact not_lt.mp fun hlt => hold ⟨f, hf, hlt⟩

theorem WardenNode.claimPeerRequest_accepts {node : WardenNode d Hash} {clock : Reading}
    {req : PeerRequest} {store store' : WardenStore d Hash} (hwindow : req.InWindow)
    (h : node.claimPeerRequest clock req store = .ok (store', true)) :
    store.window.Accepts req.clockToleranceS req.key req.timestampS store'.window := by
  simp only [claimPeerRequest, peerReplaySeconds, bind_ok_iff, require_ok_iff,
    exists_unit_iff] at h
  obtain ⟨_, _, _, _, _, _, _, _, _, h⟩ := h
  split_ifs at h with hseen
  · simp only [bind_ok_iff, exists_unit_iff, pure_ok_iff, Prod.mk.injEq] at h
    obtain ⟨_, _, hflag⟩ := h
    cases hflag
  · simp only [bind_ok_iff, exists_unit_iff, pure_ok_iff, Prod.mk.injEq] at h
    obtain ⟨_, _, _, _, _, rfl, _⟩ := h
    rw [not_or] at hseen
    refine accepts_insert peerReplayGcBatch (not_mem_of_not_mem_rows hseen.2)
      (fun f hf => ?_) hwindow.nowS_le hwindow.le_expiresAtS
    exact not_lt.mp fun hlt => hseen.1 ⟨f, hf, hlt⟩

theorem PeerAuthenticator.authenticate_ok {σ : Type} {a : PeerAuthenticator}
    {claim : PeerRequest → σ → Outcome (σ × Bool)} {nowS : ℤ} {request : PeerHttpRequest}
    {store store' : σ} {headers : PeerHeaders} {identity : PeerIdentity}
    (hheaders : request.peerHeaders = .ok headers)
    (h : a.authenticate claim nowS request store = .ok (store', identity)) :
    ∃ req, claim req store = .ok (store', true) ∧ req.InWindow ∧
      req.clockToleranceS = a.maxSkewS ∧ (req.key, req.timestampS) = headers.claim := by
  rw [authenticate, hheaders, ok_bind] at h
  simp only [bind_ok_iff, require_ok_iff, exists_unit_iff, pure_ok_iff, Prod.mk.injEq] at h
  obtain ⟨hskew, _, _, _, _, _, _, _, _, _, hnow, ⟨_, _⟩, hclaim, rfl, rfl, _⟩ := h
  refine ⟨_, hclaim, ⟨?_, ?_⟩, rfl, rfl⟩
  · change nowS.toNat ≤ headers.timestampS + a.maxSkewS
    omega
  · change headers.timestampS + a.maxSkewS ≤ max nowS.toNat headers.timestampS + a.maxSkewS
    omega

section Import

variable [DecidableEq Hash] {node : WardenNode d Hash} {clock : Reading}
  {req : LegacyImportRequest Hash} {store store' : WardenStore d Hash} {imported : Bool}

theorem WardenNode.importLegacyPeerReplay_window
    (h : node.importLegacyPeerReplay clock req store = .ok (store', imported)) :
    req.activeClaimCount = 0 ∧
    ((store' = store ∧ store.peerAuthority.legacySnapshotDigest.isSome = true) ∨
      (store'.peerReplay = store.peerReplay ∧
        store'.peerAuthority.clockFloorS = some (nextFloorS req.clockFloorS req.nowS) ∧
        FloorKept store.peerAuthority.clockFloorS store'.peerAuthority.clockFloorS)) := by
  simp only [importLegacyPeerReplay, peerReplaySeconds, bind_ok_iff, require_ok_iff,
    exists_unit_iff] at h
  obtain ⟨_, hcount, _, _, _, h⟩ := h
  refine ⟨hcount, ?_⟩
  split at h
  · next existing hexisting =>
    simp only [bind_ok_iff, require_ok_iff, exists_unit_iff, pure_ok_iff, Prod.mk.injEq] at h
    obtain ⟨_, _, rfl, _⟩ := h
    exact .inl ⟨rfl, by rw [hexisting]; rfl⟩
  · simp only [bind_ok_iff, require_ok_iff, exists_unit_iff, pure_ok_iff, Prod.mk.injEq] at h
    obtain ⟨_, _, _, _, hfloor, _, _, _, rfl, _⟩ := h
    exact .inr ⟨rfl, rfl, fun floor hmem => ⟨_, rfl, hfloor floor hmem⟩⟩

theorem LegacyReplayStore.forgets_import {legacy : LegacyReplayStore}
    {artifactDigest : LegacyReplayStore → Hash} {nowS : ℕ} {expectedDigest : Hash}
    (hsnapshot : legacy.snapshot artifactDigest nowS expectedDigest = .ok req)
    (hcount : req.activeClaimCount = 0)
    (hfloor : store'.peerAuthority.clockFloorS = some (nextFloorS req.clockFloorS req.nowS)) :
    legacy.window.Forgets store'.window := by
  simp only [snapshot, bind_ok_iff, require_ok_iff, exists_unit_iff, pure_ok_iff] at hsnapshot
  obtain ⟨_, _, _, rfl⟩ := hsnapshot
  have hle := le_nextFloorS legacy.clockFloorS nowS
  refine ⟨fun floor hmem => ⟨_, hfloor, hle.2 floor hmem⟩, fun key expiry hexpiry => ?_⟩
  obtain ⟨row, hrow, rfl⟩ := Option.map_eq_some_iff.mp hexpiry
  -- a row that had not expired would have been counted
  have hexpired : row.expiresAtS < nowS := by
    by_contra hactive
    have hmem : (⟨key, row⟩ : (_ : String × String × String) × LegacyReplayRow) ∈
        (legacy.rows.filterRows fun _ row => nowS ≤ row.expiresAtS).entries :=
      List.mem_filter.mpr ⟨Table.lookup_eq_some_iff.mp hrow, by simpa using hactive⟩
    rw [List.length_eq_zero_iff.mp hcount] at hmem
    cases hmem
  exact .inr ⟨_, hfloor, hexpired.trans_le hle.1⟩

end Import

/-! ### Histories -/

namespace ReplayStores

def window (stores : ReplayStores d Hash) : ReplayWindow (String × String × String) :=
  if stores.migrated then stores.core.window else stores.legacy.window

end ReplayStores

namespace PeerServer

variable [DecidableEq Hash] {server : PeerServer d Hash} {stores stores' : ReplayStores d Hash}

/-- Until the core takes over, nothing has been imported into it. -/
def Unimported (stores : ReplayStores d Hash) : Prop :=
  stores.migrated = false → stores.core.peerAuthority.legacySnapshotDigest = none

theorem next_ok {event : ReplayEvent d Hash} {accepted : Option PeerClaim}
    (hunimported : Unimported stores)
    (h : server.next stores event = .ok (stores', accepted)) :
    Unimported stores' ∧ match accepted with
      | some claim =>
        stores.window.Accepts server.authenticator.maxSkewS claim.1 claim.2 stores'.window
      | none => stores.window.Forgets stores'.window := by
  cases event with
  | authenticate clock nowS request =>
    simp only [next, bind_ok_iff] at h
    obtain ⟨headers, hheaders, h⟩ := h
    split_ifs at h with hmigrated
    · simp only [bind_ok_iff, pure_ok_iff, Prod.mk.injEq] at h
      obtain ⟨⟨core, _⟩, hauth, rfl, rfl⟩ := h
      obtain ⟨req, hclaim, hwindow, hskew, hkey⟩ :=
        PeerAuthenticator.authenticate_ok hheaders hauth
      have haccepts := WardenNode.claimPeerRequest_accepts hwindow hclaim
      refine ⟨fun hnot => absurd hmigrated (by simpa using hnot), ?_⟩
      simp only [← hkey, ReplayStores.window, hmigrated, if_true, ← hskew]
      exact haccepts
    · simp only [bind_ok_iff, pure_ok_iff, Prod.mk.injEq] at h
      obtain ⟨⟨legacy, _⟩, hauth, rfl, rfl⟩ := h
      obtain ⟨req, hclaim, hwindow, hskew, hkey⟩ :=
        PeerAuthenticator.authenticate_ok hheaders hauth
      have haccepts := LegacyReplayStore.claim_accepts hwindow hclaim
      refine ⟨hunimported, ?_⟩
      simp only [← hkey, ReplayStores.window, hmigrated, ← hskew]
      exact haccepts
  | prune cutoff =>
    simp only [next, LegacyReplayStore.prune, bind_ok_iff, require_ok_iff, exists_unit_iff,
      pure_ok_iff, Prod.mk.injEq] at h
    obtain ⟨_, ⟨_, _, rfl⟩, rfl, rfl⟩ := h
    refine ⟨hunimported, ?_⟩
    simp only [ReplayStores.window]
    split_ifs
    · exact .refl _
    · exact forgets_deleteExpiredRows cutoff legacyReplayGcBatch
  | migrate clock nowS expectedDigest =>
    simp only [next, bind_ok_iff, pure_ok_iff, Prod.mk.injEq] at h
    obtain ⟨req, hsnapshot, ⟨core, _⟩, himport, rfl, rfl⟩ := h
    obtain ⟨hcount, hcases⟩ := WardenNode.importLegacyPeerReplay_window himport
    refine ⟨(by rintro ⟨⟩), ?_⟩
    change stores.window.Forgets core.window
    rw [ReplayStores.window]
    split_ifs with hmigrated
    · -- the core was in use already; its floor can only have been raised
      rcases hcases with ⟨rfl, _⟩ | ⟨hrows, _, hfloor⟩
      · exact .refl _
      · refine ⟨hfloor, fun key expiry hexpiry => .inl ?_⟩
        change expiry ∈ (core.peerReplay.lookup key).map _
        rw [hrows]
        exact hexpiry
    · rcases hcases with ⟨_, hsome⟩ | ⟨_, hfloor, _⟩
      · rw [hunimported (by simpa using hmigrated)] at hsome
        cases hsome
      · exact LegacyReplayStore.forgets_import hsnapshot hcount hfloor
  | serve clock operation =>
    simp only [next, bind_ok_iff, pure_ok_iff, Prod.mk.injEq] at h
    obtain ⟨_, _, rfl, rfl⟩ := h
    exact ⟨hunimported, .refl _⟩

variable {envelope : Envelope d} {publicKey instanceId : Hash}
  {labels : List (ReplayEvent d Hash × Option PeerClaim)}

theorem play_run (stores : ReplayStores d Hash) (events : List (ReplayEvent d Hash)) :
    (server.system envelope publicKey instanceId).Run stores (server.play stores events).1
      (server.play stores events).2 := by
  induction events generalizing stores with
  | nil => exact .nil _
  | cons event events ih =>
    rw [play]
    split
    · next stores' accepted hnext =>
      exact .cons (.inl hnext) (ih stores')
    · next error hnext =>
      exact .cons (.inr ⟨⟨error, hnext⟩, rfl, rfl⟩) (ih stores)

theorem covers_of_run
    (hinit : (server.system envelope publicKey instanceId).Init stores)
    (run : (server.system envelope publicKey instanceId).Run stores labels stores') :
    Unimported stores' ∧ (acceptedRequests labels).Nodup ∧
      stores'.window.Covers server.authenticator.maxSkewS (acceptedRequests labels) := by
  refine run.history (P := fun labels stores' => Unimported stores' ∧
    (acceptedRequests labels).Nodup ∧
    stores'.window.Covers server.authenticator.maxSkewS (acceptedRequests labels)) ?_ ?_
  · refine ⟨fun _ => ?_, List.nodup_nil, (fun _ h => by cases h)⟩
    rw [hinit.2]
    rfl
  · rintro labels stores ⟨event, accepted⟩ stores' ⟨hunimported, hnodup, hcovers⟩ hstep
    rw [acceptedRequests, List.filterMap_append, ← acceptedRequests]
    rcases hstep with hok | ⟨_, rfl, rfl⟩
    · obtain ⟨hunimported', heffect⟩ := next_ok hunimported hok
      refine ⟨hunimported', ?_⟩
      cases accepted with
      | none =>
        simp only [List.filterMap_cons, List.filterMap_nil, List.append_nil]
        exact ⟨hnodup, hcovers.forgets heffect⟩
      | some claim =>
        obtain ⟨hnew, hcovers'⟩ := hcovers.accepts heffect
        simp only [List.filterMap_cons, List.filterMap_nil]
        refine ⟨?_, hcovers'⟩
        rw [← List.concat_eq_append]
        exact hnodup.concat hnew
    · simp only [List.filterMap_cons, List.filterMap_nil, List.append_nil]
      exact ⟨hunimported, hnodup, hcovers⟩

end PeerServer

/-- No signed peer request is accepted twice, whatever the clocks read and whenever expired nonces
are deleted, on the legacy store, after its import, or across the two. -/
theorem peer_request_accepted_once [DecidableEq Hash] (server : PeerServer d Hash)
    (envelope : Envelope d) (publicKey instanceId : Hash) {stores stores' : ReplayStores d Hash}
    {labels : List (ReplayEvent d Hash × Option PeerClaim)}
    (hinit : (server.system envelope publicKey instanceId).Init stores)
    (run : (server.system envelope publicKey instanceId).Run stores labels stores') :
    (acceptedRequests labels).Nodup :=
  (PeerServer.covers_of_run hinit run).2.1

namespace Sample

def peerServer : PeerServer 1 ℕ where
  node :=
    { service := service "a"
      nonceDigest := fun _ => 0
      hex := fun _ => ""
      replayClaimDigest := fun _ => 0
      replayImportDigest := fun _ => 0
      stateDigest := fun _ => 0 }
  authenticator :=
    { maxSkewS := 30
      peerBodyDigest := fun _ => "sha256:" ++ String.ofList (List.replicate 64 '0')
      trustRegistry := fun _ _ _ signature => some (signature = [97])
      maxSkewS_pos := by decide
      maxSkewS_le := by decide }
  artifactDigest _ := 0

def peerRequest (nonce timestamp : String) : PeerHttpRequest where
  method := "POST"
  headers := [("x-lets-warden-id", "b"), ("x-lets-key-id", "b"), ("x-lets-timestamp", timestamp),
    ("x-lets-nonce", nonce),
    ("x-lets-content-sha256", "sha256:" ++ String.ofList (List.replicate 64 '0')),
    ("x-lets-signature", b64urlEncode [97])]
  rawPath := "/peer".toUTF8.data.toList
  queryString := []
  body := []

def peerStores : ReplayStores 1 ℕ where
  legacy := .initial
  core := .genesis "a" "a" (envelope 10) 0 0 0
  migrated := false

/-- One request twice on the legacy store, and again after the import, which first has to wait for
the claim to expire. -/
def replayed : List (ReplayEvent 1 ℕ) :=
  [.authenticate (exactly 1) 100 (peerRequest "aaaaaaaaaaaaaaaa" "100"),
    .authenticate (exactly 2) 110 (peerRequest "aaaaaaaaaaaaaaaa" "100"),
    .migrate (exactly 3) 120 0, .migrate (exactly 4) 131 0,
    .authenticate (exactly 5) 131 (peerRequest "aaaaaaaaaaaaaaaa" "101"),
    .authenticate (exactly 6) 131 (peerRequest "aaaaaaaaaaaaaaaa" "100"),
    .authenticate (exactly 7) 131 (peerRequest "aaaaaaaaaaaaaaaa" "101")]

end Sample

open Sample

theorem peer_request_accepted_once_replayed :
    let history := peerServer.play peerStores replayed
    acceptedRequests history.1 =
        [(("b", "b", "aaaaaaaaaaaaaaaa"), 100), (("b", "b", "aaaaaaaaaaaaaaaa"), 101)] ∧
      history.2.migrated = true ∧ (acceptedRequests history.1).Nodup := by
  refine ⟨by decide +kernel, by decide +kernel, ?_⟩
  exact peer_request_accepted_once peerServer (envelope 10) 0 0 ⟨rfl, rfl⟩
    (PeerServer.play_run peerStores replayed)

end Lets
