import CryptoVaultHub.Semantics.Statement

/-!
# Impersonation sessions

`startSession` inserts a row and asks for `LAST_INSERT_ID()` in a second statement. The database
keeps that number for each connection, and the pool of connections may run the two statements on
different ones.
-/

namespace CryptoVaultHub.Auth.Impersonation

open TransitionSystem List

/-! ## Connections and rows -/

abbrev Connection := Nat

/-- A row of `impersonation_sessions`. -/
structure SessionRow where
  id : Nat
  adminUserId : Nat
  targetClientId : Int
  ipAddress : Option String
  reason : String
  startedAt : Nat
  endedAt : Option Nat
deriving DecidableEq

/-- What `startSession` is called with. -/
structure StartData where
  adminUserId : Nat
  targetClientId : Int
  reason : String
  ipAddress : Option String
deriving DecidableEq

/-- The last insert on a connection that was given a number: into `impersonation_sessions`, or into
another table. -/
inductive Insert where
  | session (id : Nat)
  | elsewhere (id : Nat)
deriving DecidableEq

def Insert.number : Insert → Nat
  | .session id => id
  | .elsewhere id => id

/-- What `startSession` returned to a call, with the number of the row that the call inserted, which
the call does not see. -/
structure Began where
  data : StartData
  rowId : Nat
  sessionId : Nat
  startedAt : Nat
deriving DecidableEq

/-- The rows, the next number of a row, the last insert on each connection, and the clock in
milliseconds. The sessions that calls were told of are not in the database. -/
structure SessionTable where
  rows : List SessionRow
  nextId : Nat
  lastInsert : Connection → Option Insert
  now : Nat
  began : List Began

namespace SessionTable

/-- `NOW()`, in whole seconds. -/
def sqlNow (table : SessionTable) : Nat := table.now / 1000 * 1000

/-- `LAST_INSERT_ID()` is 0 before the first insert on a connection. -/
def lastInsertId (table : SessionTable) (connection : Connection) : Nat :=
  (table.lastInsert connection).elim 0 Insert.number

def setLastInsert (table : SessionTable) (connection : Connection) (insert : Option Insert) :
    SessionTable :=
  { table with lastInsert := Function.update table.lastInsert connection insert }

/-- The row that a call inserts. -/
def newRow (table : SessionTable) (data : StartData) : SessionRow :=
  { id := table.nextId
    adminUserId := data.adminUserId
    targetClientId := data.targetClientId
    ipAddress := data.ipAddress
    reason := data.reason
    startedAt := table.sqlNow
    endedAt := none }

def insert (table : SessionTable) (data : StartData) (connection : Connection) : SessionTable :=
  { table.setLastInsert connection (some (.session table.nextId)) with
    rows := table.rows ++ [table.newRow data]
    nextId := table.nextId + 1 }

/-- `UPDATE impersonation_sessions SET ended_at = NOW() WHERE id = …`. -/
def setEnded (table : SessionTable) (sessionId : Nat) : SessionTable :=
  { table with
    rows := table.rows.map fun row =>
      if row.id = sessionId then { row with endedAt := some table.sqlNow } else row }

end SessionTable

/-! ## Validation -/

def maxSessionMs : Nat := 4 * 60 * 60 * 1000

structure ValidSession where
  valid : Bool
  sessionId : Nat
  adminUserId : Nat
  targetClientId : Int
  startedAt : Nat
deriving DecidableEq

inductive SessionError where
  | notFoundException (message : String)
deriving DecidableEq

def inactive : SessionError :=
  .notFoundException "Impersonation session not found, expired, or inactive"

/-- A session that has not ended and began less than four hours ago. -/
@[reducible] def SessionTable.IsLive (table : SessionTable) (row : SessionRow) : Prop :=
  row.endedAt = none ∧ table.now < row.startedAt + maxSessionMs

def SessionTable.validateSession (table : SessionTable) (sessionId : Nat) :
    Except SessionError ValidSession :=
  match table.rows.find? fun row => row.id = sessionId ∧ table.IsLive row with
  | none => .error inactive
  | some session =>
    .ok
      { valid := true
        sessionId := session.id
        adminUserId := session.adminUserId
        targetClientId := session.targetClientId
        startedAt := session.startedAt }

/-! ## Calls -/

/-- A call of `startSession` before one of its statements, with the number of its row after the
first; a call of `endSession` before one of its own. -/
inductive SessionCall where
  | insert (data : StartData)
  | lastInsertId (data : StartData) (rowId : Nat)
  | findOwn (sessionId adminUserId : Nat)
  | setEnded (sessionId : Nat)
deriving DecidableEq

/-- The statements, each on the connection that it is given. -/
def SessionCall.statement (table : SessionTable) (call : SessionCall) (connection : Connection) :
    Statement SessionTable SessionCall :=
  match call with
  | .insert data =>
    { after := table.insert data connection
      next := some (.lastInsertId data table.nextId) }
  | .lastInsertId data rowId =>
    { after :=
        { table with
          began := ⟨data, rowId, table.lastInsertId connection, table.sqlNow⟩ :: table.began }
      next := none }
  | .findOwn sessionId adminUserId =>
    { after := table
      next :=
        if table.rows.any fun row => row.id = sessionId ∧ row.adminUserId = adminUserId then
          some (.setEnded sessionId)
        else none }
  | .setEnded sessionId =>
    { after := table.setEnded sessionId
      next := none }

/-- A call whose query is answered returns; one whose answer is lost does not. -/
def SessionCall.next (table : SessionTable) (call : SessionCall) (input : Input Connection) :
    SessionTable × Option SessionCall :=
  match call, input.ending with
  | .lastInsertId .., .lost => (table, none)
  | _, ending => (call.statement table input.answer).perform table ending

/-- What begins: a call, an insert into another table, a new connection, or the time passes. -/
inductive SessionStart where
  | startSession (data : StartData)
  | endSession (sessionId adminUserId : Nat)
  | insertElsewhere (connection : Connection) (id : Nat)
  | connect (connection : Connection)
  | wait (milliseconds : Nat)

def SessionTable.start (table : SessionTable) :
    SessionStart → SessionTable × Option SessionCall
  | .startSession data => (table, some (.insert data))
  | .endSession sessionId adminUserId => (table, some (.findOwn sessionId adminUserId))
  | .insertElsewhere connection id =>
    (table.setLastInsert connection (some (.elsewhere id)), none)
  | .connect connection => (table.setLastInsert connection none, none)
  | .wait milliseconds => ({ table with now := table.now + milliseconds }, none)

/-- Before the first session; the numbers of rows begin with 1. -/
structure SessionTable.Initial (table : SessionTable) : Prop where
  rows : table.rows = []
  began : table.began = []
  nextId : 0 < table.nextId

def sessionCalls : ProcessPool SessionTable SessionCall (Input Connection) SessionStart where
  Initial := SessionTable.Initial
  next table call input := some (call.next table input)
  start table begun := some (table.start begun)

abbrev SessionPool := PoolState SessionTable SessionCall

abbrev SessionAction := PoolAction (Input Connection) SessionStart

/-! ## What a session id names -/

/-- The id is that of the row that the call inserted, and `validateSession` gives the administrator
and the client of the call for it as long as the session is live. -/
structure SessionTable.Names (table : SessionTable) (began : Began) : Prop where
  own : began.sessionId = began.rowId
  validates : ∃ row ∈ table.rows, row.id = began.rowId ∧
    table.validateSession began.sessionId =
      if table.IsLive row then
        .ok
          { valid := true
            sessionId := began.rowId
            adminUserId := began.data.adminUserId
            targetClientId := began.data.targetClientId
            startedAt := row.startedAt }
      else .error inactive

/-- The last insert on the connection of the query is that of the row, or one into another table
that was given the same number. -/
def SessionTable.LastIs (table : SessionTable) (connection : Connection) (rowId : Nat) : Prop :=
  table.lastInsert connection = some (.session rowId) ∨
    table.lastInsert connection = some (.elsewhere rowId)

/-- A query for `LAST_INSERT_ID()` that is answered runs on a connection on which the insert of its
call is the last one. -/
def ReadsOwn (state : SessionPool) : SessionAction → Prop
  | .advance pid input => ∀ data rowId,
      state.process? pid = some (.lastInsertId data rowId) → input.ending = .done →
        state.shared.LastIs input.answer rowId
  | _ => True

section Outline

variable {table before after : SessionTable} {call : SessionCall} {data : StartData} {rowId : Nat}

/-- The row that a call inserted is there. -/
def SessionTable.Holds (table : SessionTable) (data : StartData) (rowId : Nat) : Prop :=
  0 < rowId ∧ ∃ row ∈ table.rows, row.id = rowId ∧ row.adminUserId = data.adminUserId ∧
    row.targetClientId = data.targetClientId

structure SessionTable.Sound (table : SessionTable) : Prop where
  ids : (table.rows.map SessionRow.id).Nodup
  below : ∀ row ∈ table.rows, row.id < table.nextId
  positive : 0 < table.nextId
  began : ∀ began ∈ table.began, table.Holds began.data began.rowId

def SessionCall.Knows (table : SessionTable) : SessionCall → Prop
  | .lastInsertId data rowId => table.Holds data rowId
  | _ => True

def sessions : ProofOutline SessionTable SessionCall where
  Global := SessionTable.Sound
  Local := SessionCall.Knows
  Apart _ _ := True
  apart_symm _ := trivial

/-- Rows stay, with their administrators and clients. -/
def Extends (before after : SessionTable) : Prop :=
  ∀ row ∈ before.rows, ∃ later ∈ after.rows, later.id = row.id ∧
    later.adminUserId = row.adminUserId ∧ later.targetClientId = row.targetClientId

theorem extends_of_rows (same : after.rows = before.rows) : Extends before after :=
  fun row member => ⟨row, same ▸ member, rfl, rfl, rfl⟩

theorem SessionTable.Holds.extends (holds : before.Holds data rowId)
    (grows : Extends before after) : after.Holds data rowId := by
  obtain ⟨positive, row, member, id, admin, client⟩ := holds
  obtain ⟨later, inside, sameId, sameAdmin, sameClient⟩ := grows row member
  exact ⟨positive, later, inside, sameId.trans id, sameAdmin.trans admin, sameClient.trans client⟩

theorem SessionCall.Knows.extends (knows : call.Knows before) (grows : Extends before after) :
    call.Knows after := by
  cases call with
  | lastInsertId data rowId => exact SessionTable.Holds.extends knows grows
  | insert | findOwn | setEnded => trivial

/-- What a statement leaves to the others, and what its call knows then. -/
structure Acts (before after : SessionTable) (next : Option SessionCall) : Prop where
  sound : after.Sound
  grows : Extends before after
  next : ∀ later, next = some later → later.Knows after

/-- A step that leaves the rows and the calls that have returned. -/
theorem acts_of_rows (sound : before.Sound) (rows : after.rows = before.rows)
    (nextId : after.nextId = before.nextId) (began : after.began = before.began) :
    Acts before after none where
  sound :=
    { ids := rows ▸ sound.ids
      below := by
        rw [rows, nextId]
        exact sound.below
      positive := nextId ▸ sound.positive
      began := by
        rw [began]
        exact fun began member => (sound.began began member).extends (extends_of_rows rows) }
  grows := extends_of_rows rows
  next := by simp

theorem insert_acts (sound : table.Sound) (data : StartData) (connection : Connection) :
    Acts table (table.insert data connection) (some (.lastInsertId data table.nextId)) := by
  have grows : Extends table (table.insert data connection) :=
    fun row member => ⟨row, mem_append_left _ member, rfl, rfl, rfl⟩
  have inserted : table.newRow data ∈ (table.insert data connection).rows :=
    mem_append_right _ (mem_singleton_self _)
  refine ⟨⟨?_, ?_, Nat.succ_pos _, ?_⟩, grows, ?_⟩
  · have fresh : table.nextId ∉ table.rows.map SessionRow.id := by
      intro member
      obtain ⟨row, inside, same⟩ := mem_map.mp member
      exact absurd same (Nat.ne_of_lt (sound.below row inside))
    simp only [SessionTable.insert, map_append, map_singleton]
    exact nodup_append_comm.mp (nodup_cons.mpr ⟨fresh, sound.ids⟩)
  · intro row member
    rcases mem_append.mp member with old | new
    · exact Nat.lt_succ_of_lt (sound.below row old)
    · rw [mem_singleton.mp new]
      exact Nat.lt_succ_self _
  · exact fun began member => (sound.began began member).extends grows
  · rintro later ⟨⟩
    exact ⟨sound.positive, _, inserted, rfl, rfl, rfl⟩

theorem setEnded_acts (sound : table.Sound) (sessionId : Nat) :
    Acts table (table.setEnded sessionId) none := by
  have grows : Extends table (table.setEnded sessionId) := by
    intro row member
    refine ⟨_, mem_map.mpr ⟨row, member, rfl⟩, ?_⟩
    split <;> exact ⟨rfl, rfl, rfl⟩
  have ids : (table.setEnded sessionId).rows.map SessionRow.id =
      table.rows.map SessionRow.id := by
    simp only [SessionTable.setEnded, map_map]
    refine map_congr_left fun row _ => ?_
    simp only [Function.comp_apply]
    split <;> rfl
  refine ⟨⟨ids ▸ sound.ids, ?_, sound.positive, ?_⟩, grows, by simp⟩
  · intro row member
    have listed : row.id ∈ table.rows.map SessionRow.id := ids ▸ mem_map_of_mem member
    obtain ⟨earlier, inside, same⟩ := mem_map.mp listed
    exact same ▸ sound.below earlier inside
  · exact fun began member => (sound.began began member).extends grows

theorem statement_acts (sound : table.Sound) (knows : call.Knows table)
    (connection : Connection) :
    Acts table (call.statement table connection).after (call.statement table connection).next := by
  cases call with
  | insert data => exact insert_acts sound data connection
  | lastInsertId data rowId =>
    have grows : Extends table table := extends_of_rows rfl
    refine ⟨⟨sound.ids, sound.below, sound.positive, ?_⟩, grows, by simp [SessionCall.statement]⟩
    intro began member
    rcases mem_cons.mp member with rfl | old
    · exact knows
    · exact sound.began began old
  | findOwn sessionId adminUserId =>
    refine ⟨sound, extends_of_rows rfl, ?_⟩
    simp only [SessionCall.statement]
    intro later goes
    split at goes <;> cases goes
    trivial
  | setEnded sessionId => exact setEnded_acts sound sessionId

theorem next_acts (sound : table.Sound) (knows : call.Knows table) (input : Input Connection) :
    Acts table (call.next table input).1 (call.next table input).2 := by
  have acts := statement_acts sound knows input.answer
  obtain ⟨ending, connection⟩ := input
  have unchanged : Acts table table none := acts_of_rows sound rfl rfl rfl
  have stopped : Acts table (call.statement table connection).after none :=
    ⟨acts.sound, acts.grows, by simp⟩
  cases ending with
  | done => cases call <;> exact acts
  | failed => cases call <;> exact unchanged
  | lost =>
    cases call with
    | lastInsertId data rowId => exact unchanged
    | insert | findOwn | setEnded => exact stopped

theorem start_acts (sound : table.Sound) (begun : SessionStart) :
    Acts table (table.start begun).1 (table.start begun).2 := by
  cases begun with
  | startSession data =>
    refine ⟨sound, extends_of_rows rfl, ?_⟩
    rintro later ⟨⟩
    trivial
  | endSession sessionId adminUserId =>
    refine ⟨sound, extends_of_rows rfl, ?_⟩
    rintro later ⟨⟩
    trivial
  | insertElsewhere | connect | wait => exact acts_of_rows sound rfl rfl rfl

/-- The calls of a run have sound rows, whatever the connections. -/
theorem sessions_hold {Allowed : SessionPool → SessionAction → Prop} {state : SessionPool}
    (reached : sessionCalls.system.Reachable Allowed state) : sessions.Holds state := by
  refine ProofOutline.reachable reached ?_ ?_ ?_
  · rintro table ⟨rows, began, positive⟩
    refine ⟨?_, ?_, positive, ?_⟩ <;> simp [rows, began]
  · intro before begun shared process holds _ started
    have acts := start_acts holds.global begun
    rw [Option.some.inj started] at acts
    exact ⟨acts.sound, acts.next,
      fun other point _ found => (holds.locals other point found).extends acts.grows,
      fun _ _ _ _ _ _ => trivial⟩
  · intro before pid call input shared process holds _ found moved
    have acts := next_acts holds.global (holds.locals pid call found) input
    rw [Option.some.inj moved] at acts
    exact ⟨acts.sound, acts.next,
      fun other point _ running => (holds.locals other point running).extends acts.grows,
      fun _ _ _ _ _ _ => trivial⟩

/-- A row is found by its number when it is live. -/
theorem validateSession_of_mem {row : SessionRow} (sound : table.Sound)
    (member : row ∈ table.rows) :
    table.validateSession row.id =
      if table.IsLive row then
        .ok
          { valid := true
            sessionId := row.id
            adminUserId := row.adminUserId
            targetClientId := row.targetClientId
            startedAt := row.startedAt }
      else .error inactive := by
  have only : ∀ other ∈ table.rows, other.id = row.id → other = row :=
    fun other inside same => inj_on_of_nodup_map sound.ids inside member same
  unfold SessionTable.validateSession
  cases found : table.rows.find? fun other => other.id = row.id ∧ table.IsLive other with
  | none =>
    have ended : ¬ table.IsLive row := by
      simpa using find?_eq_none.mp found row member
    rw [if_neg ended]
  | some session =>
    have passes : session.id = row.id ∧ table.IsLive session := by
      simpa using find?_some found
    obtain ⟨same, live⟩ := passes
    obtain rfl := only session (mem_of_find?_eq_some found) same
    rw [if_pos live]

/-- A session id names the session of its call when it is the number of the row. -/
theorem names_iff {began : Began} (sound : table.Sound) (returned : began ∈ table.began) :
    table.Names began ↔ began.sessionId = began.rowId := by
  refine ⟨SessionTable.Names.own, fun own => ⟨own, ?_⟩⟩
  obtain ⟨-, row, member, id, admin, client⟩ := sound.began began returned
  refine ⟨row, member, id, ?_⟩
  rw [own, ← id, ← admin, ← client]
  exact validateSession_of_mem sound member

/-- Numbers begin with 1, so that a connection without an insert has none. -/
theorem lastInsertId_eq_iff {connection : Connection} (positive : 0 < rowId) :
    table.lastInsertId connection = rowId ↔ table.LastIs connection rowId := by
  unfold SessionTable.lastInsertId SessionTable.LastIs
  cases table.lastInsert connection with
  | none =>
    simp only [Option.elim_none, reduceCtorEq, or_false, iff_false]
    exact Nat.ne_of_lt positive
  | some insert =>
    cases insert <;> simp [Insert.number]

/-- Every id that was returned is the number of the row of its call. -/
def SessionTable.Own (table : SessionTable) : Prop :=
  ∀ began ∈ table.began, began.sessionId = began.rowId

/-- Only the answer of a query adds to what was returned. -/
theorem next_began (table : SessionTable) (call : SessionCall) (input : Input Connection) :
    (call.next table input).1.began = table.began ∧
        (∀ data rowId, call = .lastInsertId data rowId → input.ending ≠ .done) ∨
      ∃ data rowId, call = .lastInsertId data rowId ∧ input.ending = .done ∧
        (call.next table input).1.began =
          ⟨data, rowId, table.lastInsertId input.answer, table.sqlNow⟩ :: table.began := by
  obtain ⟨ending, connection⟩ := input
  cases call with
  | lastInsertId data rowId =>
    cases ending with
    | done => exact .inr ⟨data, rowId, rfl, rfl, rfl⟩
    | failed | lost => exact .inl ⟨rfl, by simp⟩
  | insert | findOwn | setEnded =>
    left
    refine ⟨?_, by simp⟩
    cases ending <;> rfl

theorem start_began (table : SessionTable) (begun : SessionStart) :
    (table.start begun).1.began = table.began := by
  cases begun <;> rfl

theorem own_congr (same : after.began = before.began) : after.Own ↔ before.Own := by
  rw [SessionTable.Own, SessionTable.Own, same]

theorem own_cons {began : Began} (adds : after.began = began :: before.began) :
    after.Own ↔ began.sessionId = began.rowId ∧ before.Own := by
  rw [SessionTable.Own, SessionTable.Own, adds, forall_mem_cons]

end Outline

/-! ## Runs -/

/-- In a run, every session id that was returned names the session of its call exactly when every
query for `LAST_INSERT_ID()` ran on a connection on which the insert of its call was the last. -/
theorem session_id_names_own_iff {state : SessionPool}
    (reached : sessionCalls.system.Reachable Unrestricted state) :
    (∀ began ∈ state.shared.began, state.shared.Names began) ↔
      sessionCalls.system.Reachable ReadsOwn state := by
  have named : (∀ began ∈ state.shared.began, state.shared.Names began) ↔ state.shared.Own :=
    forall₂_congr fun began returned => names_iff (sessions_hold reached).global returned
  rw [named]
  refine @Reachable.property_iff _ _ _ ReadsOwn (fun state => state.shared.Own) state reached
    ?_ ?_ ?_
  · rintro start ⟨⟨-, none, -⟩, -⟩
    simp [SessionTable.Own, none]
  · intro before action after healthy own transition
    cases action with
    | launch begun =>
      obtain ⟨shared, process, started, rfl⟩ := ProcessPool.step_launch transition
      have same := start_began before.shared begun
      rw [Option.some.inj started] at same
      exact ⟨fun _ => trivial, fun _ => (own_congr same).mpr own⟩
    | advance pid input =>
      obtain ⟨call, shared, process, found, moved, rfl⟩ := ProcessPool.step_advance transition
      have knows := (sessions_hold healthy).locals pid call found
      have answered := next_began before.shared call input
      rw [Option.some.inj moved] at answered
      obtain ⟨same, quiet⟩ | ⟨data, rowId, rfl, done, adds⟩ := answered
      · refine ⟨fun _ data rowId asks done => ?_, fun _ => (own_congr same).mpr own⟩
        cases found.symm.trans asks
        exact absurd done (quiet data rowId rfl)
      · have reads : ReadsOwn before (.advance pid input) ↔
            before.shared.LastIs input.answer rowId := by
          refine ⟨fun own => own data rowId found done, fun last => ?_⟩
          intro _ _ asks _
          cases found.symm.trans asks
          exact last
        rw [reads, ← lastInsertId_eq_iff knows.1]
        exact (own_cons adds).trans (and_iff_left own)
    | crash pid =>
      obtain ⟨call, found, rfl⟩ := ProcessPool.step_crash transition
      exact ⟨fun _ => trivial, fun _ => own⟩
  · intro before action after transition own
    cases action with
    | launch begun =>
      obtain ⟨shared, process, started, rfl⟩ := ProcessPool.step_launch transition
      have same := start_began before.shared begun
      rw [Option.some.inj started] at same
      exact (own_congr same).mp own
    | advance pid input =>
      obtain ⟨call, shared, process, found, moved, rfl⟩ := ProcessPool.step_advance transition
      have answered := next_began before.shared call input
      rw [Option.some.inj moved] at answered
      obtain ⟨same, -⟩ | ⟨data, rowId, -, -, adds⟩ := answered
      · exact (own_congr same).mp own
      · exact ((own_cons adds).mp own).2
    | crash pid =>
      obtain ⟨call, found, rfl⟩ := ProcessPool.step_crash transition
      exact own

/-! ## Two administrators -/

def noSessions : SessionTable := ⟨[], 1, fun _ => none, 0, []⟩

theorem noSessions_initial : sessionCalls.system.Initial ⟨noSessions, []⟩ :=
  ⟨⟨rfl, rfl, Nat.one_pos⟩, rfl⟩

def advances (pid : Nat) (connection : Connection) : SessionAction :=
  .advance pid ⟨.done, connection⟩

/-- Each administrator starts a session for a client. -/
def twoStarts : List SessionAction :=
  [.launch (.startSession ⟨1, 10, "ticket 1", none⟩),
    .launch (.startSession ⟨2, 20, "ticket 2", none⟩)]

def firstBegan (sessionId : Nat) : Began := ⟨⟨1, 10, "ticket 1", none⟩, 1, sessionId, 0⟩

/-- Each call keeps to its connection. -/
theorem session_id_names_own_iff_sample :
    ∃ state : SessionPool, firstBegan 1 ∈ state.shared.began ∧
      ((∀ began ∈ state.shared.began, state.shared.Names began) ↔
        sessionCalls.system.Reachable ReadsOwn state) := by
  obtain ⟨state, reachable, returned⟩ := @exists_reachable _ _ sessionCalls.system Unrestricted _
    ⟨noSessions, []⟩ (fun state => firstBegan 1 ∈ state.shared.began) _ noSessions_initial
    (twoStarts ++ [advances 0 0, advances 1 1, advances 0 0, advances 1 1]) (by decide +kernel)
  exact ⟨state, returned, session_id_names_own_iff reachable⟩

/-- The queries run on the connections of each other's inserts. The first administrator, who asked
for the client 10, is given the session of the second for the client 20. -/
theorem session_id_names_other :
    ¬ ∀ state, sessionCalls.system.Reachable Unrestricted state →
      ∀ began ∈ state.shared.began, state.shared.Names began := by
  intro names
  obtain ⟨state, reachable, returned⟩ := @exists_reachable _ _ sessionCalls.system Unrestricted _
    ⟨noSessions, []⟩ (fun state => firstBegan 2 ∈ state.shared.began ∧ state.shared.validateSession
    2 = .ok ⟨true, 2, 2, 20, 0⟩) _ noSessions_initial (twoStarts ++ [advances 0 0, advances 1 1,
    advances 0 1, advances 1 0]) (by decide +kernel)
  have own := (names state reachable _ returned.1).own
  cases own

end CryptoVaultHub.Auth.Impersonation
