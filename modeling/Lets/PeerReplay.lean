import Lets.Warden

set_option autoImplicit false

/-!
# The peer replay authority

The rest of a warden's durable store: the identity of the database file, the claims of peer request
nonces, and the authority row that chains them.
-/

namespace Lets

open Library

variable {d : ℕ} {Hash : Type}

def peerReplayGcBatch : ℕ := 128

/-- The row of `peer_http_authority`. -/
structure PeerReplayAuthority (Hash : Type) where
  clockFloorS : Option ℕ
  revision : ℕ
  historyDigest : Hash
  legacySnapshotDigest : Option Hash
  deriving DecidableEq

/-- A claimed nonce; the table is keyed by warden, key and nonce. -/
structure PeerReplayRow where
  timestampS : ℕ
  expiresAtS : ℕ
  acceptedAtNs : ℕ
  deriving DecidableEq

structure WardenStore (d : ℕ) (Hash : Type) where
  schemaVersion : ℕ
  signingPublicKeySha256 : Hash
  databaseInstanceId : Hash
  database : Database d Hash
  peerAuthority : PeerReplayAuthority Hash
  peerReplay : Table (String × String × String) PeerReplayRow

structure PeerReplayClaim (Hash : Type) where
  previous : Hash
  revision : ℕ
  wardenId : String
  keyId : String
  nonceSha256 : Hash
  timestampS : ℕ
  expiresAtS : ℕ
  acceptedAtNs : ℕ
  deriving DecidableEq

structure PeerReplayImport (Hash : Type) where
  snapshotSha256 : Hash
  legacyClockFloorS : Option ℕ
  clockFloorS : ℕ
  deriving DecidableEq

/-- The part of the store that the authority checkpoint has a digest of. -/
structure StatePayload (d : ℕ) (Hash : Type) where
  freePool : ResourceVector d
  leaseResidual : ResourceVector d
  consumed : ResourceVector d
  transferredIn : ResourceVector d
  transferredOut : ResourceVector d
  revision : ℕ
  runtimeControl : RuntimeStatus
  peerHttpReplay : PeerReplayAuthority Hash
  deriving DecidableEq

structure WardenNode (d : ℕ) (Hash : Type) where
  service : WardenService d Hash
  nonceDigest : String → Hash
  hex : Hash → String
  replayClaimDigest : PeerReplayClaim Hash → Hash
  replayImportDigest : PeerReplayImport Hash → Hash
  stateDigest : StatePayload d Hash → Hash

structure PeerRequest where
  wardenId : String
  keyId : String
  nonce : String
  timestampS : ℕ
  expiresAtS : ℕ
  nowS : ℕ
  clockToleranceS : ℕ

structure LegacyImportRequest (Hash : Type) where
  clockFloorS : Option ℕ
  snapshotDigest : Hash
  activeClaimCount : ℕ
  nowS : ℕ

def peerReplaySeconds (value : ℕ) (field : String) : Outcome Unit :=
  require (value ≤ maxResource)
    (.validation ("peer replay " ++ field ++ " must be a non-negative integer"))

def nextFloorS (floor : Option ℕ) (nowS : ℕ) : ℕ :=
  match floor with
  | none => nowS
  | some floor => max nowS floor

namespace WardenStore

/-- The store as `_insert_genesis` and the migrations create it. -/
def genesis (wardenId signingKeyId : String) (envelope : Envelope d)
    (signingPublicKeySha256 databaseInstanceId zeroHash : Hash) : WardenStore d Hash where
  schemaVersion := 3
  signingPublicKeySha256 := signingPublicKeySha256
  databaseInstanceId := databaseInstanceId
  database := .genesis wardenId signingKeyId envelope
  peerAuthority :=
    { clockFloorS := none
      revision := 0
      historyDigest := zeroHash
      legacySnapshotDigest := none }
  peerReplay := ∅

def statePayload (store : WardenStore d Hash) : StatePayload d Hash where
  freePool := store.database.freePool
  leaseResidual := store.database.leaseResidual
  consumed := store.database.consumed
  transferredIn := store.database.transferredIn
  transferredOut := store.database.transferredOut
  revision := store.database.revision
  runtimeControl := store.database.runtime
  peerHttpReplay := store.peerAuthority

end WardenStore

namespace WardenNode

/-- `claim_peer_request`: whether the nonce is new. -/
def claimPeerRequest (node : WardenNode d Hash) (clock : Reading) (req : PeerRequest)
    (store : WardenStore d Hash) : Outcome (WardenStore d Hash × Bool) := do
  let svc := node.service
  peerReplaySeconds req.timestampS "timestamp_s"
  peerReplaySeconds req.expiresAtS "expires_at_s"
  peerReplaySeconds req.nowS "now_s"
  peerReplaySeconds req.clockToleranceS "clock_tolerance_s"
  require (∀ peers ∈ svc.allowedPeerWardens, req.wardenId ∈ peers)
    (.signature "peer warden is not admitted by the signed manifest")
  require (req.timestampS + req.clockToleranceS ≤ maxResource)
    (.validation "peer replay timestamp window exceeds signed 64-bit time")
  require (max req.timestampS req.nowS ≤ req.expiresAtS)
    (.validation "peer replay expiry precedes its acceptance window")
  let authority := store.peerAuthority
  let key := (req.wardenId, req.keyId, req.nonce)
  svc.verifyDatabaseIdentity store.database
  require (∀ floor ∈ authority.clockFloorS, floor ≤ req.nowS)
    (.clockUncertain "peer HTTP clock moved behind its anchored replay floor")
  if (∃ floor ∈ authority.clockFloorS, req.timestampS + req.clockToleranceS < floor) ∨
      key ∈ store.peerReplay then do
    store.database.assertLocalConservation
    pure (store, false)
  else do
    let db ← store.database.clockIsSafe clock
    let rows := store.peerReplay.deleteBatch
      (fun key row => toLex (row.expiresAtS, toLex (key.1, toLex (key.2.1, key.2.2))))
      (fun _ row => row.expiresAtS < req.nowS) peerReplayGcBatch
    let revision := authority.revision + 1
    let nonceSha256 := node.nonceDigest req.nonce
    let historyDigest := node.replayClaimDigest
      { previous := authority.historyDigest
        revision
        wardenId := req.wardenId
        keyId := req.keyId
        nonceSha256
        timestampS := req.timestampS
        expiresAtS := req.expiresAtS
        acceptedAtNs := clock.nowNs }
    let db ← svc.appendAudit clock "peer-http.nonce-claimed" "warden" req.wardenId req.wardenId
      [("key_id", .text req.keyId),
        ("nonce_sha256", .text ("sha256:" ++ node.hex nonceSha256)),
        ("timestamp_s", .number req.timestampS), ("expires_at_s", .number req.expiresAtS),
        ("replay_revision", .number revision),
        ("replay_history_digest", .text ("sha256:" ++ node.hex historyDigest))] db
    db.assertLocalConservation
    pure ({ store with
      database := db
      peerReplay := rows.insert key
        { timestampS := req.timestampS
          expiresAtS := req.expiresAtS
          acceptedAtNs := clock.nowNs }
      peerAuthority := { authority with
        clockFloorS := some (nextFloorS authority.clockFloorS req.nowS)
        revision
        historyDigest } }, true)

/-- `import_legacy_peer_replay`: whether anything was imported. -/
def importLegacyPeerReplay [DecidableEq Hash] (node : WardenNode d Hash) (clock : Reading)
    (req : LegacyImportRequest Hash) (store : WardenStore d Hash) :
    Outcome (WardenStore d Hash × Bool) := do
  let svc := node.service
  peerReplaySeconds req.nowS "migration now_s"
  require (req.activeClaimCount = 0)
    (.validation ("legacy peer replay still has live claims; keep the schema-1 node stopped, " ++
      "wait at least the peer signature validity window, then retry migration"))
  require (∀ floor ∈ req.clockFloorS, floor ≤ maxResource)
    (.validation "peer replay legacy clock_floor_s must be a non-negative integer")
  require (∀ floor ∈ req.clockFloorS, floor ≤ req.nowS)
    (.clockUncertain "migration clock moved behind the legacy peer replay floor")
  svc.verifyDatabaseIdentity store.database
  match store.peerAuthority.legacySnapshotDigest with
  | some existing => do
    require (existing = req.snapshotDigest)
      (.conflict "legacy peer replay import is bound to a different snapshot")
    store.database.assertLocalConservation
    pure (store, false)
  | none => do
    require (store.peerAuthority.revision = 0)
      (.conflict "peer replay authority advanced before legacy import")
    require (store.peerReplay.anyRow (fun _ _ => true) = false)
      (.conflict "core peer replay table is non-empty before legacy import")
    let db ← store.database.clockIsSafe clock
    let importedFloor := nextFloorS req.clockFloorS req.nowS
    -- the trigger of the table holds the authority row to its own floor
    require (∀ floor ∈ store.peerAuthority.clockFloorS, floor ≤ importedFloor)
      (.integrity "peer replay clock floor cannot move backward")
    let historyDigest := node.replayImportDigest
      { snapshotSha256 := req.snapshotDigest
        legacyClockFloorS := req.clockFloorS
        clockFloorS := importedFloor }
    let db ← svc.appendAudit clock "peer-http.legacy-replay-imported" "warden" svc.wardenId
      "lets-migration"
      [("snapshot_sha256", .text ("sha256:" ++ node.hex req.snapshotDigest)),
        ("legacy_clock_floor_s", match req.clockFloorS with
          | none => .absent
          | some floor => .number floor),
        ("clock_floor_s", .number importedFloor), ("active_claim_count", .number 0),
        ("replay_revision", .number 1),
        ("replay_history_digest", .text ("sha256:" ++ node.hex historyDigest))] db
    db.assertLocalConservation
    pure ({ store with
      database := db
      peerAuthority :=
        { clockFloorS := some importedFloor
          revision := 1
          historyDigest
          legacySnapshotDigest := some req.snapshotDigest } }, true)

end WardenNode

inductive StoreOperation (d : ℕ) (Hash : Type)
  | service (operation : Operation d)
  | claimPeerRequest (req : PeerRequest)
  | importLegacyPeerReplay (req : LegacyImportRequest Hash)

inductive StoreResponse (d : ℕ)
  | response (out : Response d)
  | flag (b : Bool)

namespace WardenNode

variable [DecidableEq Hash]

def exec (node : WardenNode d Hash) (clock : Reading) (operation : StoreOperation d Hash)
    (store : WardenStore d Hash) : Outcome (WardenStore d Hash × StoreResponse d) :=
  match operation with
  | .service operation => do
    let (db, out) ← node.service.exec clock operation store.database
    pure ({ store with database := db }, .response out)
  | .claimPeerRequest req => do
    let (store, claimed) ← node.claimPeerRequest clock req store
    pure (store, .flag claimed)
  | .importLegacyPeerReplay req => do
    let (store, imported) ← node.importLegacyPeerReplay clock req store
    pure (store, .flag imported)

end WardenNode

end Lets
