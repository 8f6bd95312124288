import CryptoVaultHub.Sweep.Records

/-!
# The sweep

`executeSweep` selects the confirmed deposits of a client that have no sweep hash, looks for the
tokens that each of their forwarders holds, and submits one flush for each native token and one for
all the other tokens of a forwarder. The three paths of a submission differ in the calls before the
broadcast; those change nothing, and their errors are caught where the broadcast's are.

A broadcast can reach the chain and throw nevertheless.
-/

namespace CryptoVaultHub.Sweep

/-- What the statements of both services read outside the shared state: which deposits the policies
let through, the rows of the configuration, the hash of the signed transaction, the rows of the gas
tank that are older than 15 seconds, whether a transaction is past its age, and whether the provider
knows the receipt already. -/
structure Answer where
  allows : Listed → Bool
  chain : Option (Option Address)
  gasTankWallet : Bool
  tokens : List Token
  isDeployed : Option Bool
  projectWallet : Option Address
  clientWallet : Option Address
  hash : TxHash
  isOld : Nat → Bool
  pastAge : Bool
  knowsReceipt : Bool

/-- An entry of `tokensWithBalance`. -/
structure TokenEntry where
  token : Token
  depositIds : List Nat
deriving DecidableEq

/-- The entries of one submission. -/
abbrev Flush := List TokenEntry

/-- A forwarder of the loop, with the selected deposits and the forwarders that follow. -/
structure Visit where
  deposits : List Listed
  tokens : List Token
  forwarder : Address
  later : List Address
deriving DecidableEq

/-- The points of `executeSweep`. -/
inductive SweepPoint where
  | setLock
  | findDeposits
  | findChain (deposits : List Listed)
  | findGasTank (deposits : List Listed)
  | findTokens (deposits : List Listed)
  | findAddress (visit : Visit)
  | getCode (visit : Visit)
  | readBalance (visit : Visit) (token : Token) (rest : List TokenId) (found : List TokenEntry)
  | resolveParentWallet (visit : Visit) (found : List TokenEntry)
  | submit (visit : Visit) (flush : Flush) (rest : List Flush)
  | logSubmit (visit : Visit) (flush : Flush) (rest : List Flush) (hash : TxHash)
  | markPending (visit : Visit) (flush : Flush) (rest : List Flush) (hash : TxHash)
  | publish (visit : Visit) (flush : Flush) (rest : List Flush) (hash : TxHash)
  | markFailed (visit : Visit) (flush : Flush) (rest : List Flush)
  | getLock
  | delLock
deriving DecidableEq

structure Sweeper where
  clientId : ClientId
  lockValue : Nat
  point : SweepPoint
deriving DecidableEq

def Flush.depositIds (flush : Flush) : List Nat := flush.flatMap TokenEntry.depositIds

def Flush.tokenIds (flush : Flush) : List TokenId := flush.map fun entry => entry.token.id

/-- `getProjectHotWallet`, then `getClientHotWallet`. -/
def resolveParentWallet (answer : Answer) (projectId : Nat) : Option Address :=
  if 0 < projectId then answer.projectWallet.or answer.clientWallet else answer.clientWallet

/-- The project of the first deposit of a forwarder. -/
def Visit.projectId (visit : Visit) : Nat :=
  ((visit.deposits.find? fun row => row.deposit.forwarderAddress = visit.forwarder).map fun row =>
    row.deposit.projectId).getD 0

/-- The deposits of a token on the forwarder. -/
def Visit.depositsOf (visit : Visit) (tokenId : TokenId) : List Listed :=
  visit.deposits.filter fun row =>
    row.deposit.forwarderAddress = visit.forwarder && row.deposit.tokenId = tokenId

/-- The tokens of the deposits on the forwarder. -/
def Visit.tokenIds (visit : Visit) : List TokenId :=
  ((visit.deposits.filter fun row => row.deposit.forwarderAddress = visit.forwarder).map fun row =>
    row.deposit.tokenId).eraseDups

/-- The next forwarder of the loop. -/
def SweepPoint.nextForwarder (deposits : List Listed) (tokens : List Token) :
    List Address → SweepPoint
  | [] => .getLock
  | forwarder :: later => .findAddress ⟨deposits, tokens, forwarder, later⟩

def Visit.continue (visit : Visit) : SweepPoint :=
  SweepPoint.nextForwarder visit.deposits visit.tokens visit.later

/-- The next token with a row, or the end of the tokens. -/
def Visit.nextToken (visit : Visit) (found : List TokenEntry) : List TokenId → SweepPoint
  | [] => if found = [] then visit.continue else .resolveParentWallet visit found
  | tokenId :: rest =>
    match visit.tokens.find? fun token => token.id = tokenId with
    | none => visit.nextToken found rest
    | some token => .readBalance visit token rest found

/-- One flush for each native token, then one for the others. -/
def flushes (found : List TokenEntry) : List Flush :=
  (found.filter fun entry => entry.token.isNative).map (fun entry => [entry]) ++
    let erc20 := found.filter fun entry => !entry.token.isNative
    if erc20 = [] then [] else [erc20]

def Visit.nextFlush (visit : Visit) : List Flush → SweepPoint
  | [] => visit.continue
  | flush :: rest => .submit visit flush rest

def Sweeper.goTo (sweeper : Sweeper) (point : SweepPoint) : Option Sweeper :=
  some { sweeper with point := point }

/-- The transaction of a submission. -/
def Sweeper.tx (sweeper : Sweeper) (visit : Visit) (flush : Flush) (hash : TxHash) : SweepTx :=
  ⟨hash, visit.forwarder, flush.tokenIds, flush.depositIds, sweeper.lockValue, none⟩

/-- A statement that only reads; an error releases the lock. -/
def Sweeper.read (sweeper : Sweeper) (shared : Shared) (point : SweepPoint) :
    Statement Shared Sweeper :=
  { after := shared, next := sweeper.goTo point, thrown := sweeper.goTo .getLock }

/-- A read for one forwarder; an error skips the forwarder. -/
def Sweeper.visit (sweeper : Sweeper) (shared : Shared) (visit : Visit) (point : SweepPoint) :
    Statement Shared Sweeper :=
  { after := shared, next := sweeper.goTo point, thrown := sweeper.goTo visit.continue }

/-- `executeSweep`. -/
def Sweeper.statement (shared : Shared) (sweeper : Sweeper) (answer : Answer) :
    Statement Shared Sweeper :=
  match sweeper.point with
  | .setLock =>
    if shared.locks.any fun lock => lock.1 = sweeper.clientId then
      { after := shared, next := none }
    else
      { after := { shared with locks := (sweeper.clientId, sweeper.lockValue) :: shared.locks }
        next := sweeper.goTo .findDeposits }
  | .findDeposits =>
    let deposits := (shared.select fun row =>
      row.clientId = sweeper.clientId && row.status = .confirmed &&
        row.sweepTxHash = none).filter answer.allows
    sweeper.read shared (if deposits = [] then .getLock else .findChain deposits)
  | .findChain deposits =>
    sweeper.read shared <|
      match answer.chain with
      | none => .getLock
      | some factory =>
        if factory = none ∧ deposits.all fun row => row.deposit.projectId = 0 then .getLock
        else .findGasTank deposits
  | .findGasTank deposits =>
    sweeper.read shared (if answer.gasTankWallet then .findTokens deposits else .getLock)
  | .findTokens deposits =>
    sweeper.read shared (SweepPoint.nextForwarder deposits answer.tokens
      (deposits.map fun row => row.deposit.forwarderAddress).eraseDups)
  | .findAddress visit =>
    sweeper.visit shared visit
      (if answer.isDeployed = some false then visit.continue else .getCode visit)
  | .getCode visit =>
    sweeper.visit shared visit
      (if visit.forwarder ∈ shared.deployed then visit.nextToken [] visit.tokenIds
      else visit.continue)
  | .readBalance visit token rest found =>
    sweeper.visit shared visit <|
      if 0 < shared.balance visit.forwarder token.id then
        visit.nextToken (found ++ [⟨token, (visit.depositsOf token.id).map Listed.id⟩]) rest
      else visit.nextToken found rest
  | .resolveParentWallet visit found =>
    sweeper.visit shared visit <|
      if resolveParentWallet answer visit.projectId = none then visit.continue
      else visit.nextFlush (flushes found)
  | .submit visit flush rest =>
    if (shared.tx? answer.hash).isSome then
      { after := shared
        next := sweeper.goTo (.markFailed visit flush rest)
        thrown := sweeper.goTo (.markFailed visit flush rest) }
    else
      { after := { shared with sent := shared.sent ++ [sweeper.tx visit flush answer.hash] }
        next := sweeper.goTo (.logSubmit visit flush rest answer.hash)
        thrown := sweeper.goTo (.markFailed visit flush rest) }
  | .logSubmit visit flush rest hash =>
    { after := { shared with gasTank := shared.gasTank ++ [⟨hash, .submitted⟩] }
      next := sweeper.goTo (.markPending visit flush rest hash)
      thrown := sweeper.goTo (.markPending visit flush rest hash) }
  | .markPending visit flush rest hash =>
    { after := shared.updateDeposits (fun id _ => id ∈ flush.depositIds) fun row =>
        { row with status := .sweepPending, sweepTxHash := some hash }
      next := sweeper.goTo (.publish visit flush rest hash)
      thrown := sweeper.goTo (.markFailed visit flush rest) }
  | .publish visit flush rest _ =>
    { after := shared
      next := sweeper.goTo (visit.nextFlush rest)
      thrown := sweeper.goTo (.markFailed visit flush rest) }
  | .markFailed visit flush rest =>
    { after := shared.updateDeposits (fun id _ => id ∈ flush.depositIds) fun row =>
        { row with status := .sweepFailed }
      next := sweeper.goTo (visit.nextFlush rest)
      thrown := sweeper.goTo visit.continue }
  | .getLock =>
    { after := shared
      next :=
        if (sweeper.clientId, sweeper.lockValue) ∈ shared.locks then sweeper.goTo .delLock
        else none }
  | .delLock =>
    { after := { shared with
        locks := shared.locks.filter fun lock => lock.1 ≠ sweeper.clientId }
      next := none }

end CryptoVaultHub.Sweep
