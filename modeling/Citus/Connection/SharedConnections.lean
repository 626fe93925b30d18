import Citus.Lib.Run
import Mathlib

/-!
# Shared connection counters

Every backend of a database counts the connections it opens to a worker in
`SharedConnStatsHash` (`shared_connection_stats.c`), a hash in shared memory keyed by
hostname, port and database, so that all backends together stay within
`citus.max_shared_pool_size`. `StartNodeUserDatabaseConnection`
(`connection_management.c`) counts a new connection before establishing it, waiting for
room, giving up, or counting it unconditionally, and marks it
`POOL_STATE_COUNTER_INCREMENTED`; `CitusPQFinish` uncounts it once. A backend can also
reserve a count in advance (`EnsureConnectionPossibilityForNode`,
`locally_reserved_shared_connections.c`), which a later connection uses and
`DeallocateReservedConnections` gives back.

The counts are meant to equal, per key, the counted connections plus the unused
reservations of all backends. They do not when the shared hash has no room for a new
key: `hash_search` with `HASH_ENTER_NULL` returns no entry, the counter functions give
way without counting, and the connection is marked counted all the same. Its later
`CitusPQFinish` then takes the count of another backend's connection
(`sharedConnStatsHash_uncounted_decrement`).

## Implementation notes

* A backend opens a new connection in each `startConnection` event; reusing a cached
  connection changes no counter and is not an event. A connection is available for a
  reservation check when it is initialized.
* `WAIT_FOR_CONNECTION` waits until `TryToIncrementSharedConnectionCounter` succeeds: the
  event is enabled only then.
* The shared hash holds at most `hashCapacity` entries; `HASH_ENTER_NULL` fails for a new
  key when it is full. The number of client backends the local node sees is given with
  each event.
-/

namespace Citus.Connection

/-- `SharedConnStatsHashKey`. -/
structure SharedConnStatsHashKey where
  hostname : String
  port : Nat
  databaseOid : Nat
  deriving DecidableEq, Repr

/-- `SharedConnStatsHashEntry`. -/
structure SharedConnStatsHashEntry where
  key : SharedConnStatsHashKey
  connectionCount : Int
  deriving DecidableEq, Repr

/-- `ReservedConnectionHashKey`. -/
structure ReservedConnectionHashKey where
  hostname : String
  port : Nat
  userId : Nat
  databaseOid : Nat
  deriving DecidableEq, Repr

/-- `ReservedConnectionHashEntry`. -/
structure ReservedConnectionHashEntry where
  key : ReservedConnectionHashKey
  usedReservation : Bool
  deriving DecidableEq, Repr

/-- `MultiConnectionStructInitializationState`, in its order. -/
inductive PoolState
  | notInitialized
  | counterIncremented
  | initialized
  deriving DecidableEq, Repr

/-- The initialization state is at least `POOL_STATE_COUNTER_INCREMENTED`. -/
def PoolState.isCounted : PoolState → Bool
  | .notInitialized => false
  | .counterIncremented | .initialized => true

/-- A `MultiConnection`, by the fields the counters read. -/
structure MultiConnection where
  hostname : String
  port : Nat
  initializationState : PoolState
  deriving DecidableEq, Repr

/-- A backend: its user, its connections and its `SessionLocalReservedConnections`. -/
structure Backend where
  userId : Nat
  connections : List MultiConnection
  reservations : List ReservedConnectionHashEntry
  deriving DecidableEq, Repr

/-- The settings and the database the backends run in. -/
structure PoolConfig where
  /-- `GetMaxSharedPoolSize()`. -/
  maxSharedPoolSize : Int
  /-- `GetLocalSharedPoolSize()`. -/
  localSharedPoolSize : Int
  /-- The node is in the local group. -/
  isLocalNode : String → Nat → Bool
  databaseOid : Nat
  /-- The entries `SharedConnStatsHash` has room for. -/
  hashCapacity : Nat

/-- The shared hash and the backends of one database. -/
structure SharedConnections where
  sharedConnStatsHash : List SharedConnStatsHashEntry
  backends : List Backend

section Counters

variable (config : PoolConfig)

/-- The key of a node in the current database. -/
def sharedKey (hostname : String) (port : Nat) : SharedConnStatsHashKey :=
  ⟨hostname, port, config.databaseOid⟩

/-- The count of a key: `0` when it has no entry. -/
def connectionCount (hash : List SharedConnStatsHashEntry) (key : SharedConnStatsHashKey) : Int :=
  ((hash.find? (·.key == key)).map (·.connectionCount)).getD 0

/-- The count of a key's entry changed. -/
def updateCount (hash : List SharedConnStatsHashEntry) (key : SharedConnStatsHashKey) (count : Int) :
    List SharedConnStatsHashEntry :=
  hash.map fun entry => if entry.key = key then { entry with connectionCount := count } else entry

/-- `CanUseReservedConnection`. -/
def canUseReservedConnection (backend : Backend) (key : ReservedConnectionHashKey) : Bool :=
  match backend.reservations.find? (·.key == key) with
  | some entry => !entry.usedReservation
  | none => false

/-- `MarkReservedConnectionUsed`. -/
def markReservedConnectionUsed (backend : Backend) (key : ReservedConnectionHashKey) : Backend :=
  { backend with
    reservations := backend.reservations.map fun entry =>
      if entry.key = key then { entry with usedReservation := true } else entry }

/-- `TryToIncrementSharedConnectionCounter`: whether the backend may connect, with the
shared hash and the backend after the call. An unused reservation of the backend is
used first; a new key is admitted with count `1`, and, when the hash has no room for
it, admitted without a count. -/
def tryToIncrementSharedConnectionCounter (activeBackendCount : Nat)
    (hash : List SharedConnStatsHashEntry) (backend : Backend) (hostname : String) (port : Nat) :
    Bool × List SharedConnStatsHashEntry × Backend :=
  let reservationKey : ReservedConnectionHashKey := ⟨hostname, port, backend.userId, config.databaseOid⟩
  if canUseReservedConnection backend reservationKey then
    (true, hash, markReservedConnectionUsed backend reservationKey)
  else
    let key := sharedKey config hostname port
    let connectionToLocalNode := config.isLocalNode hostname port
    if connectionToLocalNode ∧ config.localSharedPoolSize = -1 then (false, hash, backend)
    else
      match hash.find? (·.key == key) with
      | none =>
          -- `HASH_ENTER_NULL` finds no room: the connection goes ahead uncounted
          if hash.length ≥ config.hashCapacity then (true, hash, backend)
          else (true, hash ++ [⟨key, 1⟩], backend)
      | some entry =>
          if connectionToLocalNode then
            if (activeBackendCount : Int) + 1 > config.localSharedPoolSize then (false, hash, backend)
            else if entry.connectionCount + 1 > config.localSharedPoolSize then (false, hash, backend)
            else (true, updateCount hash key (entry.connectionCount + 1), backend)
          else if entry.connectionCount + 1 > config.maxSharedPoolSize then (false, hash, backend)
          else (true, updateCount hash key (entry.connectionCount + 1), backend)

/-- `IncrementSharedConnectionCounter`: counts the connection if the hash has room. -/
def incrementSharedConnectionCounter (hash : List SharedConnStatsHashEntry) (hostname : String)
    (port : Nat) : List SharedConnStatsHashEntry :=
  let key := sharedKey config hostname port
  match hash.find? (·.key == key) with
  | none => if hash.length ≥ config.hashCapacity then hash else hash ++ [⟨key, 1⟩]
  | some entry => updateCount hash key (entry.connectionCount + 1)

/-- `DecrementSharedConnectionCounter`: a key without an entry is left alone, and an
entry whose count reaches `0` is removed. -/
def decrementSharedConnectionCounter (hash : List SharedConnStatsHashEntry) (hostname : String)
    (port : Nat) : List SharedConnStatsHashEntry :=
  let key := sharedKey config hostname port
  match hash.find? (·.key == key) with
  | none => hash
  | some entry =>
      if entry.connectionCount - 1 = 0 then hash.filter (·.key != key)
      else updateCount hash key (entry.connectionCount - 1)

end Counters

/-- The flags of `StartNodeUserDatabaseConnection` that choose how the counter is taken. -/
inductive ConnectionFlag
  | waitForConnection
  | optionalConnection
  | none
  deriving DecidableEq, Repr

/-- What the backends do. -/
inductive ConnectionEvent
  /-- `StartNodeUserDatabaseConnection` opens a new connection. -/
  | startConnection (backend : Nat) (hostname : String) (port : Nat) (flag : ConnectionFlag)
      (activeBackendCount : Nat)
  /-- `EnsureConnectionPossibilityForNode`. -/
  | ensureConnectionPossibility (backend : Nat) (hostname : String) (port : Nat)
      (waitForConnection : Bool) (activeBackendCount : Nat)
  /-- `CitusPQFinish` of the backend's connection at the index. -/
  | citusPQFinish (backend : Nat) (connection : Nat)
  | deallocateReservedConnections (backend : Nat)

section Step

variable (config : PoolConfig)

/-- The shared hash and one backend written back. -/
def SharedConnections.setBackend (pool : SharedConnections) (index : Nat)
    (hash : List SharedConnStatsHashEntry) (backend : Backend) : SharedConnections :=
  ⟨hash, pool.backends.set index backend⟩

/-- `StartNodeUserDatabaseConnection` for a new connection: none while a waiting
backend still waits. -/
def startNodeUserDatabaseConnection (pool : SharedConnections) (index : Nat) (backend : Backend)
    (hostname : String) (port : Nat) (flag : ConnectionFlag) (activeBackendCount : Nat) :
    Option SharedConnections :=
  let opened (hash : List SharedConnStatsHashEntry) (backend : Backend) :=
    pool.setBackend index hash
      { backend with connections := backend.connections ++ [⟨hostname, port, .initialized⟩] }
  match flag with
  | .waitForConnection =>
      match tryToIncrementSharedConnectionCounter config activeBackendCount pool.sharedConnStatsHash
          backend hostname port with
      | (true, hash, backend) => some (opened hash backend)
      | (false, _, _) => none
  | .optionalConnection =>
      match tryToIncrementSharedConnectionCounter config activeBackendCount pool.sharedConnStatsHash
          backend hostname port with
      | (true, hash, backend) => some (opened hash backend)
      -- the connection is dropped
      | (false, _, _) => some pool
  | .none =>
      some (opened (incrementSharedConnectionCounter config pool.sharedConnStatsHash hostname port)
        backend)

/-- `EnsureConnectionPossibilityForNode`: none while a waiting backend still waits. -/
def ensureConnectionPossibilityForNode (pool : SharedConnections) (index : Nat) (backend : Backend)
    (hostname : String) (port : Nat) (waitForConnection : Bool) (activeBackendCount : Nat) :
    Option SharedConnections :=
  let key : ReservedConnectionHashKey := ⟨hostname, port, backend.userId, config.databaseOid⟩
  if backend.connections.any fun connection =>
      connection.hostname == hostname && connection.port == port &&
        connection.initializationState == .initialized then
    some pool
  else if backend.reservations.any (·.key == key) then some pool
  else
    -- `AllocateOrGetReservedConnectionEntry`: a new entry counts as used until reserved
    let allocated := { backend with reservations := backend.reservations ++ [⟨key, true⟩] }
    let reserved (backend : Backend) :=
      { backend with
        reservations := backend.reservations.map fun entry =>
          if entry.key = key then { entry with usedReservation := false } else entry }
    match tryToIncrementSharedConnectionCounter config activeBackendCount pool.sharedConnStatsHash
        allocated hostname port with
    | (true, hash, backend) => some (pool.setBackend index hash (reserved backend))
    | (false, _, _) => if waitForConnection then none else some pool

/-- `CitusPQFinish`: a counted connection is uncounted once. -/
def citusPQFinish (pool : SharedConnections) (index : Nat) (backend : Backend) (position : Nat) :
    Option SharedConnections :=
  match backend.connections[position]? with
  | some connection =>
      if connection.initializationState.isCounted then
        some (pool.setBackend index
          (decrementSharedConnectionCounter config pool.sharedConnStatsHash connection.hostname
            connection.port)
          { backend with
            connections := backend.connections.set position
              { connection with initializationState := .notInitialized } })
      else some pool
  | none => none

/-- `DeallocateReservedConnections`: unused reservations are given back, and all are
dropped. -/
def deallocateReservedConnections (pool : SharedConnections) (index : Nat) (backend : Backend) :
    SharedConnections :=
  pool.setBackend index
    (backend.reservations.foldl
      (fun hash entry =>
        if entry.usedReservation then hash
        else decrementSharedConnectionCounter config hash entry.key.hostname entry.key.port)
      pool.sharedConnStatsHash)
    { backend with reservations := [] }

/-- One event of one backend. -/
def connectionStep (pool : SharedConnections) : ConnectionEvent → Option SharedConnections
  | .startConnection index hostname port flag activeBackendCount =>
      pool.backends[index]?.bind fun backend =>
        startNodeUserDatabaseConnection config pool index backend hostname port flag activeBackendCount
  | .ensureConnectionPossibility index hostname port waitForConnection activeBackendCount =>
      pool.backends[index]?.bind fun backend =>
        ensureConnectionPossibilityForNode config pool index backend hostname port waitForConnection
          activeBackendCount
  | .citusPQFinish index position =>
      pool.backends[index]?.bind fun backend => citusPQFinish config pool index backend position
  | .deallocateReservedConnections index =>
      pool.backends[index]?.map fun backend => deallocateReservedConnections config pool index backend

end Step

/-- What the count of a key should be: the connections to it that are counted and the
unused reservations for it, over all backends. -/
def expectedCount (pool : SharedConnections) (key : SharedConnStatsHashKey) : Nat :=
  (pool.backends.map fun backend =>
    (backend.connections.filter fun connection =>
      connection.hostname == key.hostname && connection.port == key.port &&
        connection.initializationState.isCounted).length +
    (backend.reservations.filter fun entry =>
      entry.key.hostname == key.hostname && entry.key.port == key.port &&
        entry.key.databaseOid == key.databaseOid && !entry.usedReservation).length).sum

/-- A shared hash with room for one entry, a pool of `100`, and two workers. -/
def fullHashConfig : PoolConfig := ⟨100, 50, fun _ _ => false, 1, 1⟩

/-- Backend `0` connects to `worker-a`, filling the hash; backend `1` connects to
`worker-b` uncounted. Backend `0` closes, backend `2` connects to `worker-b` and is
counted, and backend `1` closes, taking backend `2`'s count. -/
def uncountedEvents : List ConnectionEvent :=
  [.startConnection 0 "worker-a" 5432 .none 0, .startConnection 1 "worker-b" 5432 .none 0,
    .citusPQFinish 0 0, .startConnection 2 "worker-b" 5432 .none 0, .citusPQFinish 1 0]

/-- Three backends of user `10`, without connections. -/
def threeBackends : SharedConnections := ⟨[], [⟨10, [], []⟩, ⟨10, [], []⟩, ⟨10, [], []⟩]⟩

theorem sharedConnStatsHash_uncounted_decrement :
    ∃ pool, (uncountedEvents.take 2).foldlM (connectionStep fullHashConfig) threeBackends = some pool ∧
      connectionCount pool.sharedConnStatsHash ⟨"worker-b", 5432, 1⟩ = 0 ∧
      expectedCount pool ⟨"worker-b", 5432, 1⟩ = 1 ∧
    ∃ pool, uncountedEvents.foldlM (connectionStep fullHashConfig) threeBackends = some pool ∧
      connectionCount pool.sharedConnStatsHash ⟨"worker-b", 5432, 1⟩ = 0 ∧
      expectedCount pool ⟨"worker-b", 5432, 1⟩ = 1 :=
  ⟨_, rfl, rfl, rfl, _, rfl, rfl, rfl⟩

end Citus.Connection
