import CryptoVaultHub.Indexer.DepositPersistence

/-!
# Detecting deposits by their balances

A poll reads the balances of all monitored addresses at once, compares each with the
balance in the cache, overwrites the cache, and then publishes a message for each
balance that has increased. An entry of the cache expires after an hour, and the
reconciliation overwrites it with a balance of its own. Polls can overlap: a cycle that
has timed out leaves its poll running.

The times of the readings, the polled balances and the record of the publications are
not in the program; no statement depends on them.
-/

namespace CryptoVaultHub.Indexer

inductive MonitoringMode where
  | realtime
  | polling
  | hybrid
deriving DecidableEq

/-- A row of `monitored_addresses`. -/
structure MonitoredAddress where
  address : Address
  clientId : Nat
  isActive : Bool
deriving DecidableEq

/-- `balance:<chain>:<address>:<token>`; the native currency has the zero address. -/
structure BalanceKey where
  address : Address
  contractAddress : Address
deriving DecidableEq

/-- A balance with the time at which it was read. -/
structure Reading where
  balance : Nat
  time : Nat
deriving DecidableEq

/-- A difference that the reconciliation has found. -/
structure Discrepancy where
  key : BalanceKey
  onChainBalance : Nat
  cachedBalance : Nat
deriving DecidableEq

/-- A published increase with the times of the two readings that were compared. -/
structure Publication where
  message : Message
  base : Nat
  time : Nat
deriving DecidableEq

/-- The tables, the caches of the head and of the balances, and the records. -/
structure Polling where
  addresses : List MonitoredAddress
  monitoringModes : List (Nat × MonitoringMode)
  chainKnown : Bool
  head : Option Nat
  cursor : Option Nat
  cache : List (BalanceKey × Reading)
  discrepancies : List Discrepancy
  store : Store
  polled : List (BalanceKey × Nat)
  publications : List Publication
deriving DecidableEq

def Polling.cached? (polling : Polling) (key : BalanceKey) : Option Reading :=
  polling.cache.lookup key

def Polling.expire (polling : Polling) (key : BalanceKey) : Polling :=
  { polling with cache := polling.cache.filter fun entry => entry.1 ≠ key }

def Polling.setCache (polling : Polling) (key : BalanceKey) (reading : Reading) : Polling :=
  { polling with cache := (key, reading) :: (polling.expire key).cache }

/-- The mode that a client has set; the last of several counts. -/
def Polling.mode (polling : Polling) (clientId : Nat) : MonitoringMode :=
  (polling.monitoringModes.reverse.lookup clientId).getD .hybrid

/-! ## A poll -/

/-- A decoded balance, the entry of the cache once it was read, and whether the new one was
written. -/
structure Entry where
  key : BalanceKey
  reading : Reading
  previous : Option (Option Reading)
  written : Bool
deriving DecidableEq

def Entry.start (key : BalanceKey) (reading : Reading) : Entry :=
  ⟨key, reading, none, false⟩

/-- A missing entry counts as zero. -/
def Entry.previousBalance (entry : Entry) : Nat :=
  (entry.previous.join.map Reading.balance).getD 0

def Entry.increase (entry : Entry) : Nat :=
  entry.reading.balance - entry.previousBalance

/-- The time of the reading that was compared; a missing entry counts as the beginning. -/
def Entry.base (entry : Entry) : Nat :=
  (entry.previous.join.map Reading.time).getD 0

structure ResolvedTx where
  txHash : TxHash
  blockNumber : Nat
  fromAddress : Option Address
deriving DecidableEq

/-- The last eight digits of an address. -/
def addressTail (address : Address) : Nat :=
  address % 16 ^ 8

def synthHash (currentBlock : Nat) (key : BalanceKey) : DepositHash :=
  .polling currentBlock (addressTail key.address)
    (if key.contractAddress = zeroAddress then none else some (addressTail key.contractAddress))

/-- The message for an increase. -/
def Entry.message (entry : Entry) (currentBlock : Nat) (resolved : Option ResolvedTx) :
    Message where
  txHash := (resolved.map fun tx => .transaction tx.txHash).getD (synthHash currentBlock entry.key)
  blockNumber := (resolved.map ResolvedTx.blockNumber).getD currentBlock
  fromAddress := resolved.bind ResolvedTx.fromAddress
  toAddress := entry.key.address
  contractAddress := entry.key.contractAddress
  amount := entry.increase
  isPolling := true

/-- The points of `pollChain` with `resolveTxHash` in it. The entries of the cache are read
at once and then written at once, in any order; `failed` says that writing one has thrown. -/
inductive PollPoint where
  | findAddresses
  | findConfigs (addresses : List MonitoredAddress)
  | findTokens (addresses : List MonitoredAddress)
  | getProvider (calls : List BalanceKey)
  | findChain (calls : List BalanceKey)
  | multicall (calls : List BalanceKey)
  | getHead (entries : List Entry)
  | getBlockNumber (entries : List Entry)
  | setHead (entries : List Entry) (head : Nat)
  | findCursor (entries : List Entry)
  | updateCursor (entries : List Entry) (currentBlock : Nat)
  | readCache (currentBlock : Nat) (entries : List Entry)
  | writeCache (currentBlock : Nat) (entries : List Entry) (failed : Bool)
  | lookupProvider (currentBlock : Nat) (entry : Entry) (rest : List Entry)
  | lookupBlock (currentBlock : Nat) (entry : Entry) (rest : List Entry) (blockNumber : Nat)
  | lookupLogs (currentBlock : Nat) (entry : Entry) (rest : List Entry)
  | publish (currentBlock : Nat) (entry : Entry) (rest : List Entry)
      (resolved : Option ResolvedTx)
deriving DecidableEq

/-- What the provider answers: the balances with the time of the block they are from, the
number of the newest block, a block, and the logs to an address with their blocks. `chosen`
is the entry of the cache that comes next; `streamed` is as for the detector of blocks. -/
structure PollAnswer where
  balances : BalanceKey → Option Nat
  time : Nat
  blockNumber : Nat
  transactions : Option (List Transaction)
  logs : List (Nat × Log)
  chosen : Nat
  streamed : Bool

/-- The balances to read: the native currency and each token of every address. -/
def balanceCalls (addresses : List MonitoredAddress) (tokens : List Token) : List BalanceKey :=
  addresses.flatMap fun row =>
    ⟨row.address, zeroAddress⟩ ::
      (tokens.filter fun token => !token.isNative).map fun token =>
        ⟨row.address, token.contractAddress⟩

/-- The balances whose call has succeeded. -/
def decodeBalances (answer : PollAnswer) (calls : List BalanceKey) : List Entry :=
  calls.filterMap fun key =>
    (answer.balances key).map fun balance => Entry.start key ⟨balance, answer.time⟩

/-- Go on to the next increase; its transaction is looked up unless this is the first
balance of the address. -/
def PollPoint.emit (currentBlock : Nat) : List Entry → Option PollPoint
  | [] => none
  | entry :: rest =>
    if entry.previousBalance < entry.reading.balance then
      if entry.previous.join.isSome then some (.lookupProvider currentBlock entry rest)
      else some (.publish currentBlock entry rest none)
    else PollPoint.emit currentBlock rest

/-- Write what is left, then go through the increases unless writing has failed. -/
def PollPoint.writing (currentBlock : Nat) (entries : List Entry) (failed : Bool) :
    Option PollPoint :=
  if entries.all Entry.written then
    if failed then none else PollPoint.emit currentBlock entries
  else some (.writeCache currentBlock entries failed)

/-- Read what is left, then write. -/
def PollPoint.reading (currentBlock : Nat) (entries : List Entry) : Option PollPoint :=
  if entries.all fun entry => entry.previous.isSome then PollPoint.writing currentBlock entries false
  else some (.readCache currentBlock entries)

def lookbackBlocks : Nat := 10

/-- The newest block first, down to the end of the lookback. -/
def PollPoint.lookupBefore (currentBlock : Nat) (entry : Entry) (rest : List Entry)
    (blockNumber : Nat) : PollPoint :=
  if currentBlock - lookbackBlocks < blockNumber then
    .lookupBlock currentBlock entry rest (blockNumber - 1)
  else .publish currentBlock entry rest none

/-- A transaction that sends a value to the address. -/
def findTransfer (address : Address) (transactions : List Transaction) : Option Transaction :=
  transactions.find? fun transaction => transaction.recipient = some address ∧ 0 < transaction.value

/-- Write the entry of the cache; this is when a balance counts as polled. -/
def Polling.write (polling : Polling) (entry : Entry) : Polling :=
  { polling.setCache entry.key entry.reading with
    polled := polling.polled ++ [(entry.key, entry.reading.balance)] }

def Polling.publish (polling : Polling) (publication : Publication) : Polling :=
  { polling with
    store := polling.store.publish publication.message
    publications := polling.publications ++ [publication] }

/-- `pollChain`. An error ends it, except where the head or the cursor cannot be read or
written, and where the transaction of an increase cannot be found. -/
def PollPoint.statement (polling : Polling) (answer : PollAnswer) :
    PollPoint → Statement Polling PollPoint
  | .findAddresses =>
    let addresses := polling.addresses.filter MonitoredAddress.isActive
    { after := polling
      next := if addresses.isEmpty then none else some (.findConfigs addresses) }
  | .findConfigs addresses =>
    let addresses := addresses.filter fun row => polling.mode row.clientId ≠ .realtime
    { after := polling
      next := if addresses.isEmpty then none else some (.findTokens addresses) }
  | .findTokens addresses =>
    { after := polling, next := some (.getProvider (balanceCalls addresses polling.store.tokens)) }
  | .getProvider calls => { after := polling, next := some (.findChain calls) }
  | .findChain calls =>
    { after := polling, next := if polling.chainKnown then some (.multicall calls) else none }
  | .multicall calls => { after := polling, next := some (.getHead (decodeBalances answer calls)) }
  | .getHead entries =>
    { after := polling
      next :=
        match polling.head with
        | some head => some (.updateCursor entries head)
        | none => some (.getBlockNumber entries) }
  | .getBlockNumber entries =>
    { after := polling
      next := some (.setHead entries answer.blockNumber)
      thrown := some (.findCursor entries) }
  | .setHead entries head =>
    { after := { polling with head := some head }
      next := some (.updateCursor entries head)
      thrown := some (.findCursor entries) }
  | .findCursor entries =>
    { after := polling, next := some (.updateCursor entries (polling.cursor.getD 0)) }
  | .updateCursor entries currentBlock =>
    { after := { polling with cursor := some currentBlock }
      next := PollPoint.reading currentBlock entries
      thrown := PollPoint.reading currentBlock entries }
  | .readCache currentBlock entries =>
    match entries[answer.chosen]? with
    | some { key := key, reading := balance, previous := none, written := done } =>
      { after := polling
        next := PollPoint.reading currentBlock
          (entries.set answer.chosen ⟨key, balance, some (polling.cached? key), done⟩) }
    | _ => { after := polling, next := some (.readCache currentBlock entries) }
  | .writeCache currentBlock entries failed =>
    match entries[answer.chosen]? with
    | some { key := key, reading := balance, previous := previous, written := false } =>
      let entries := entries.set answer.chosen ⟨key, balance, previous, true⟩
      { after := polling.write ⟨key, balance, previous, false⟩
        next := PollPoint.writing currentBlock entries failed
        thrown := PollPoint.writing currentBlock entries true }
    | _ =>
      { after := polling
        next := some (.writeCache currentBlock entries failed)
        thrown := some (.writeCache currentBlock entries failed) }
  | .lookupProvider currentBlock entry rest =>
    { after := polling
      next :=
        if entry.key.contractAddress = zeroAddress then
          some (.lookupBlock currentBlock entry rest currentBlock)
        else some (.lookupLogs currentBlock entry rest)
      thrown := some (.publish currentBlock entry rest none) }
  | .lookupBlock currentBlock entry rest blockNumber =>
    { after := polling
      next :=
        match findTransfer entry.key.address (answer.transactions.getD []) with
        | some transaction =>
          some (.publish currentBlock entry rest
            (some ⟨transaction.hash, blockNumber, some transaction.sender⟩))
        | none => some (PollPoint.lookupBefore currentBlock entry rest blockNumber)
      thrown := some (.publish currentBlock entry rest none) }
  | .lookupLogs currentBlock entry rest =>
    { after := polling
      next := some (.publish currentBlock entry rest
        (answer.logs.getLast?.map fun (blockNumber, log) =>
          ⟨log.transactionHash, blockNumber, some log.sender⟩))
      thrown := some (.publish currentBlock entry rest none) }
  | .publish currentBlock entry rest resolved =>
    { after :=
        if answer.streamed then
          polling.publish ⟨entry.message currentBlock resolved, entry.base, entry.reading.time⟩
        else polling
      next := PollPoint.emit currentBlock rest }

/-! ## The reconciliation -/

/-- One batch of `reconcileChain`: the balances are read at once, and each is then compared
with the cache and written to it. -/
inductive ReconcilePoint where
  | multicall (calls : List BalanceKey)
  | readCache (key : BalanceKey) (onChain : Reading) (rest : List Entry)
  | writeCache (key : BalanceKey) (onChain : Reading) (rest : List Entry)
deriving DecidableEq

def ReconcilePoint.continue : List Entry → Option ReconcilePoint
  | [] => none
  | entry :: rest => some (.readCache entry.key entry.reading rest)

def ReconcilePoint.statement (polling : Polling) (answer : PollAnswer) :
    ReconcilePoint → Statement Polling ReconcilePoint
  | .multicall calls =>
    { after := polling, next := ReconcilePoint.continue (decodeBalances answer calls) }
  | .readCache key onChain rest =>
    let cached := ((polling.cached? key).map Reading.balance).getD 0
    { after :=
        if onChain.balance = cached then polling
        else
          { polling with
            discrepancies := polling.discrepancies ++ [⟨key, onChain.balance, cached⟩] }
      next := some (.writeCache key onChain rest) }
  | .writeCache key onChain rest =>
    { after := polling.setCache key onChain, next := ReconcilePoint.continue rest }

/-! ## The services -/

inductive PollingProcess where
  | poll (point : PollPoint)
  | reconcile (point : ReconcilePoint)
deriving DecidableEq

def PollingProcess.statement (polling : Polling) (process : PollingProcess)
    (answer : PollAnswer) : Statement Polling PollingProcess :=
  match process with
  | .poll point => (point.statement polling answer).map .poll
  | .reconcile point => (point.statement polling answer).map .reconcile

/-- A poll, a batch of the reconciliation, the expiry of an entry or of the head, and any
change of the tables. -/
inductive PollingStart where
  | poll
  | reconcile (calls : List BalanceKey)
  | expire (key : BalanceKey)
  | expireHead
  | moveCursor (block : Nat)
  | configure (addresses : List MonitoredAddress) (modes : List (Nat × MonitoringMode))
      (tokens : List Token) (chainKnown : Bool)

def Polling.start (polling : Polling) : PollingStart → Option (Polling × Option PollingProcess)
  | .poll => some (polling, some (.poll .findAddresses))
  | .reconcile calls => some (polling, some (.reconcile (.multicall calls)))
  | .expire key => some (polling.expire key, none)
  | .expireHead => some ({ polling with head := none }, none)
  | .moveCursor block => some ({ polling with cursor := some block }, none)
  | .configure addresses modes tokens chainKnown =>
    some ({ polling with
      addresses := addresses
      monitoringModes := modes
      chainKnown := chainKnown
      store := { polling.store with tokens := tokens } }, none)

/-- Nothing was polled, cached or published yet. -/
structure Polling.Initial (polling : Polling) : Prop where
  cache : polling.cache = []
  stream : polling.store.stream = []
  polled : polling.polled = []
  publications : polling.publications = []

def balancePolling : ProcessPool Polling PollingProcess (Input PollAnswer) PollingStart :=
  .ofStatements Polling.Initial PollingProcess.statement Polling.start

end CryptoVaultHub.Indexer
