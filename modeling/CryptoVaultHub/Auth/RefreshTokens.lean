import CryptoVaultHub.Auth.Tokens
import CryptoVaultHub.Semantics.Statement

/-!
# Refresh tokens

`refresh` looks up the session of a refresh token, deletes it by its id, and inserts a session for a
new token, in statements between which other calls run. A delete of a row that is gone throws, so
one of several calls for a token gets past it. `logout` deletes the sessions of a token.

A new token is random: its hash is not that of a token that was drawn or presented before, and its
session has a new id.
-/

namespace CryptoVaultHub.Auth.Refresh

open TransitionSystem List

/-! ## Sessions -/

/-- A row of `sessions`. -/
structure SessionRow where
  id : String
  userId : UserId
  refreshTokenHash : String
  ipAddress : Option String
  userAgent : Option String
  expiresAt : Nat
deriving DecidableEq

/-- A refresh call that has stored a session for its new token, and whether it began after a logout
with the token it was given. -/
structure Issued where
  refreshToken : String
  late : Bool
deriving DecidableEq

/-- The sessions, the users that are active, and the clock in milliseconds. The hashes of the tokens
that were drawn or presented, the ids that were used, the tokens that were logged out, and the calls
that have issued tokens are not in the database. -/
structure SessionTable where
  sessions : List SessionRow
  active : List UserId
  now : Nat
  seen : List String
  usedIds : List String
  loggedOut : List String
  issued : List Issued

/-- `sha256`, and the lifetime of a refresh token in milliseconds. -/
structure Settings where
  sha256 : String → String
  refreshTokenTtlMs : Nat

inductive RefreshPoint where
  | findFirst
  | delete (session : SessionRow)
  | create (session : SessionRow)
deriving DecidableEq

/-- A call in progress; `issueTokens` is that of a login or a registration. -/
inductive SessionCall where
  | refresh (refreshToken : String) (late : Bool) (point : RefreshPoint)
  | logout (refreshToken : String)
  | issueTokens (userId : UserId) (ipAddress userAgent : Option String)
deriving DecidableEq

/-- Which of several rows is found first, and what is drawn for a new session. -/
structure Draw where
  found : Nat
  refreshToken : String
  sessionId : String

variable (settings : Settings)

namespace SessionTable

/-- The draw repeats nothing. -/
@[reducible] def Fresh (table : SessionTable) (draw : Draw) : Prop :=
  settings.sha256 draw.refreshToken ∉ table.seen ∧ draw.sessionId ∉ table.usedIds

/-- The insert of `issueTokens`, with the first 500 characters of the user agent. -/
def create (table : SessionTable) (userId : UserId) (ipAddress userAgent : Option String)
    (draw : Draw) : SessionTable :=
  { table with
    sessions := table.sessions ++
      [{ id := draw.sessionId
         userId := userId
         refreshTokenHash := settings.sha256 draw.refreshToken
         ipAddress := ipAddress
         userAgent := userAgent.map fun agent => String.ofList (agent.toList.take 500)
         expiresAt := table.now + settings.refreshTokenTtlMs }]
    seen := settings.sha256 draw.refreshToken :: table.seen
    usedIds := draw.sessionId :: table.usedIds }

/-- The sessions of a token that have not expired. -/
def sessionsOf (table : SessionTable) (refreshToken : String) : List SessionRow :=
  table.sessions.filter fun session =>
    session.refreshTokenHash = settings.sha256 refreshToken ∧ table.now < session.expiresAt

end SessionTable

/-- The statements of `refresh`, `logout` and `issueTokens`. -/
def SessionCall.statement (table : SessionTable) (call : SessionCall) (draw : Draw) :
    Statement SessionTable SessionCall :=
  match call with
  | .refresh refreshToken late .findFirst =>
    let sessions := table.sessionsOf settings refreshToken
    { after := table
      next :=
        match sessions[draw.found % sessions.length]? with
        | none => none
        | some session =>
          if session.userId ∈ table.active then
            some (.refresh refreshToken late (.delete session))
          else none }
  | .refresh refreshToken late (.delete session) =>
    if table.sessions.any fun row => row.id = session.id then
      { after := { table with sessions := table.sessions.filter fun row => row.id ≠ session.id }
        next := some (.refresh refreshToken late (.create session)) }
    else { after := table, next := none }
  | .refresh refreshToken late (.create session) =>
    let created := table.create settings session.userId session.ipAddress session.userAgent draw
    { after := { created with issued := ⟨refreshToken, late⟩ :: created.issued }
      next := none }
  | .logout refreshToken =>
    { after :=
        { table with
          sessions := table.sessions.filter fun session =>
            session.refreshTokenHash ≠ settings.sha256 refreshToken
          loggedOut := refreshToken :: table.loggedOut }
      next := none }
  | .issueTokens userId ipAddress userAgent =>
    { after := table.create settings userId ipAddress userAgent draw
      next := none }

/-- What begins: a call, or a change of the users or of the time. -/
inductive SessionStart where
  | refresh (refreshToken : String)
  | logout (refreshToken : String)
  | issueTokens (userId : UserId) (ipAddress userAgent : Option String)
  | setActive (active : List UserId)
  | wait (milliseconds : Nat)

def SessionTable.start (table : SessionTable) :
    SessionStart → Option (SessionTable × Option SessionCall)
  | .refresh refreshToken =>
    some ({ table with seen := settings.sha256 refreshToken :: table.seen },
      some (.refresh refreshToken (refreshToken ∈ table.loggedOut) .findFirst))
  | .logout refreshToken =>
    some ({ table with seen := settings.sha256 refreshToken :: table.seen },
      some (.logout refreshToken))
  | .issueTokens userId ipAddress userAgent =>
    some (table, some (.issueTokens userId ipAddress userAgent))
  | .setActive active => some ({ table with active := active }, none)
  | .wait milliseconds => some ({ table with now := table.now + milliseconds }, none)

/-- Before the first session. -/
structure SessionTable.Initial (table : SessionTable) : Prop where
  sessions : table.sessions = []
  loggedOut : table.loggedOut = []
  issued : table.issued = []

/-- The calls, whose draws repeat nothing. -/
def sessionCalls : ProcessPool SessionTable SessionCall (Input Draw) SessionStart where
  Initial := SessionTable.Initial
  next table call input :=
    if table.Fresh settings input.answer then
      some ((call.statement settings table input.answer).perform table input.ending)
    else none
  start := SessionTable.start settings

abbrev SessionPool := PoolState SessionTable SessionCall

abbrev SessionAction := PoolAction (Input Draw) SessionStart

/-! ## What the calls know -/

section Outline

variable {settings} {table before after : SessionTable} {call : SessionCall} {token : String}

/-- No row has the hash of the token. -/
def SessionTable.Gone (settings : Settings) (table : SessionTable) (token : String) : Prop :=
  ∀ row ∈ table.sessions, row.refreshTokenHash ≠ settings.sha256 token

structure SessionTable.Sound (settings : Settings) (table : SessionTable) : Prop where
  hashes : (table.sessions.map SessionRow.refreshTokenHash).Nodup
  seen : ∀ row ∈ table.sessions, row.refreshTokenHash ∈ table.seen
  used : ∀ row ∈ table.sessions, row.id ∈ table.usedIds
  ids : (table.sessions.map SessionRow.id).Nodup
  out : ∀ token ∈ table.loggedOut, settings.sha256 token ∈ table.seen ∧ table.Gone settings token
  spent : ∀ issue ∈ table.issued, settings.sha256 issue.refreshToken ∈ table.seen ∧
    table.Gone settings issue.refreshToken
  once : (table.issued.map fun issue => settings.sha256 issue.refreshToken).Nodup
  early : ∀ issue ∈ table.issued, issue.late = false

/-- A call that has found a session is not late; when it has deleted the session, there is no row
for its token any more, and no other call has issued tokens for it. -/
def RefreshPoint.Knows (settings : Settings) (table : SessionTable) (token : String)
    (late : Bool) : RefreshPoint → Prop
  | .findFirst => late = true → token ∈ table.loggedOut
  | .delete session => late = false ∧ session.refreshTokenHash = settings.sha256 token ∧
      session.id ∈ table.usedIds ∧ ∀ row ∈ table.sessions, row.id = session.id → row = session
  | .create _ => late = false ∧ table.Gone settings token ∧
      ∀ issue ∈ table.issued, settings.sha256 issue.refreshToken ≠ settings.sha256 token

def SessionCall.Knows (settings : Settings) (table : SessionTable) : SessionCall → Prop
  | .refresh token late point =>
    settings.sha256 token ∈ table.seen ∧ point.Knows settings table token late
  | .logout token => settings.sha256 token ∈ table.seen
  | .issueTokens .. => True

/-- No two calls have deleted the session of one token. -/
def SessionCall.Apart (settings : Settings) : SessionCall → SessionCall → Prop
  | .refresh first _ (.create _), .refresh second _ (.create _) =>
    settings.sha256 first ≠ settings.sha256 second
  | _, _ => True

theorem SessionCall.Apart.symm {first second : SessionCall} (apart : first.Apart settings second) :
    second.Apart settings first := by
  unfold SessionCall.Apart at apart ⊢
  split
  · exact fun same => apart same.symm
  · trivial

def refreshing (settings : Settings) : ProofOutline SessionTable SessionCall where
  Global := SessionTable.Sound settings
  Local := SessionCall.Knows settings
  Apart := SessionCall.Apart settings
  apart_symm := SessionCall.Apart.symm

/-- Rows go, and new ones have new hashes and ids. -/
structure Extends (before after : SessionTable) : Prop where
  rows : ∀ row ∈ after.sessions, row ∈ before.sessions ∨
    (row.refreshTokenHash ∉ before.seen ∧ row.id ∉ before.usedIds)
  seen : before.seen ⊆ after.seen
  usedIds : before.usedIds ⊆ after.usedIds
  loggedOut : before.loggedOut ⊆ after.loggedOut
  issued : after.issued = before.issued

theorem SessionTable.Gone.extends (gone : table.Gone settings token)
    (seen : settings.sha256 token ∈ table.seen) (grows : Extends table after) :
    after.Gone settings token := by
  intro row member same
  obtain old | ⟨new, -⟩ := grows.rows row member
  · exact gone row old same
  · exact new (same ▸ seen)

/-- What a call knows, others leave to it. -/
theorem SessionCall.Knows.extends (knows : call.Knows settings table)
    (grows : Extends table after) : call.Knows settings after := by
  cases call with
  | refresh token late point =>
    obtain ⟨seen, knows⟩ := knows
    refine ⟨grows.seen seen, ?_⟩
    cases point with
    | findFirst => exact fun isLate => grows.loggedOut (knows isLate)
    | delete session =>
      obtain ⟨early, hash, used, unique⟩ := knows
      refine ⟨early, hash, grows.usedIds used, ?_⟩
      intro row member same
      obtain old | ⟨-, new⟩ := grows.rows row member
      · exact unique row old same
      · exact absurd (same ▸ used) new
    | create session =>
      obtain ⟨early, gone, unissued⟩ := knows
      refine ⟨early, gone.extends seen grows, ?_⟩
      rw [grows.issued]
      exact unissued
  | logout token => exact grows.seen knows
  | issueTokens => trivial

theorem extends_refl (table : SessionTable) : Extends table table where
  rows _ member := .inl member
  seen := List.Subset.refl _
  usedIds := List.Subset.refl _
  loggedOut := List.Subset.refl _
  issued := rfl

theorem extends_filter (table : SessionTable) (keep : SessionRow → Bool) :
    Extends table { table with sessions := table.sessions.filter keep } :=
  { extends_refl table with rows := fun _ member => .inl (mem_filter.mp member).1 }

theorem extends_create {draw : Draw} (fresh : table.Fresh settings draw) (userId : UserId)
    (ipAddress userAgent : Option String) :
    Extends table (table.create settings userId ipAddress userAgent draw) where
  rows row member := by
    rcases mem_append.mp member with old | new
    · exact .inl old
    · rw [mem_singleton.mp new]
      exact .inr fresh
  seen := subset_cons_self _ _
  usedIds := subset_cons_self _ _
  loggedOut := List.Subset.refl _
  issued := rfl

namespace SessionTable

/-- Deleting rows keeps a table sound. -/
theorem Sound.filter (sound : table.Sound settings) (keep : SessionRow → Bool) :
    Sound settings { table with sessions := table.sessions.filter keep } where
  hashes := sound.hashes.sublist (filter_sublist.map _)
  seen row member := sound.seen row (mem_filter.mp member).1
  used row member := sound.used row (mem_filter.mp member).1
  ids := sound.ids.sublist (filter_sublist.map _)
  out token member := ⟨(sound.out token member).1,
    (sound.out token member).2.extends (sound.out token member).1 (extends_filter table keep)⟩
  spent issue member := ⟨(sound.spent issue member).1,
    (sound.spent issue member).2.extends (sound.spent issue member).1 (extends_filter table keep)⟩
  once := sound.once
  early := sound.early

theorem Sound.create {draw : Draw} (sound : table.Sound settings)
    (fresh : table.Fresh settings draw) (userId : UserId) (ipAddress userAgent : Option String) :
    Sound settings (table.create settings userId ipAddress userAgent draw) := by
  have grows := extends_create fresh userId ipAddress userAgent
  refine ⟨?_, ?_, ?_, ?_, ?_, ?_, sound.once, sound.early⟩
  · have apart : settings.sha256 draw.refreshToken ∉
        table.sessions.map SessionRow.refreshTokenHash := by
      intro member
      obtain ⟨row, inside, same⟩ := mem_map.mp member
      exact fresh.1 (same ▸ sound.seen row inside)
    rw [SessionTable.create, map_append, map_singleton]
    exact nodup_append_comm.mp (nodup_cons.mpr ⟨apart, sound.hashes⟩)
  · intro row member
    rcases mem_append.mp member with old | new
    · exact grows.seen (sound.seen row old)
    · rw [mem_singleton.mp new]
      exact mem_cons_self
  · intro row member
    rcases mem_append.mp member with old | new
    · exact grows.usedIds (sound.used row old)
    · rw [mem_singleton.mp new]
      exact mem_cons_self
  · have apart : draw.sessionId ∉ table.sessions.map SessionRow.id := by
      intro member
      obtain ⟨row, inside, same⟩ := mem_map.mp member
      exact fresh.2 (same ▸ sound.used row inside)
    rw [SessionTable.create, map_append, map_singleton]
    exact nodup_append_comm.mp (nodup_cons.mpr ⟨apart, sound.ids⟩)
  · intro token member
    obtain ⟨seen, gone⟩ := sound.out token member
    exact ⟨grows.seen seen, gone.extends seen grows⟩
  · intro issue member
    obtain ⟨seen, gone⟩ := sound.spent issue member
    exact ⟨grows.seen seen, gone.extends seen grows⟩

/-- A token for which no tokens were issued is exchanged. -/
theorem Sound.issue (sound : table.Sound settings) (seen : settings.sha256 token ∈ table.seen)
    (gone : table.Gone settings token)
    (unissued : ∀ issue ∈ table.issued,
      settings.sha256 issue.refreshToken ≠ settings.sha256 token) :
    Sound settings { table with issued := ⟨token, false⟩ :: table.issued } where
  hashes := sound.hashes
  seen := sound.seen
  used := sound.used
  ids := sound.ids
  out := sound.out
  spent issue member := by
    rcases mem_cons.mp member with rfl | old
    · exact ⟨seen, gone⟩
    · exact sound.spent issue old
  once := by
    rw [map_cons]
    refine nodup_cons.mpr ⟨?_, sound.once⟩
    intro member
    obtain ⟨issue, inside, same⟩ := mem_map.mp member
    exact unissued issue inside same
  early issue member := by
    rcases mem_cons.mp member with rfl | old
    · rfl
    · exact sound.early issue old

theorem Sound.logout (sound : table.Sound settings) (seen : settings.sha256 token ∈ table.seen) :
    Sound settings { table with
      sessions := table.sessions.filter fun session =>
        session.refreshTokenHash ≠ settings.sha256 token
      loggedOut := token :: table.loggedOut } :=
  { sound.filter _ with
    out := by
      intro other member
      rcases mem_cons.mp member with rfl | old
      · refine ⟨seen, fun row inside => ?_⟩
        simpa using (mem_filter.mp inside).2
      · exact (sound.filter _).out other old }

theorem Sound.see (sound : table.Sound settings) (hash : String) :
    Sound settings { table with seen := hash :: table.seen } where
  hashes := sound.hashes
  seen row member := mem_cons_of_mem _ (sound.seen row member)
  used := sound.used
  ids := sound.ids
  out token member := ⟨mem_cons_of_mem _ (sound.out token member).1,
    (sound.out token member).2⟩
  spent issue member := ⟨mem_cons_of_mem _ (sound.spent issue member).1,
    (sound.spent issue member).2⟩
  once := sound.once
  early := sound.early

end SessionTable

/-- What a statement leaves: a sound table, in which calls know what they knew unless tokens were
issued for the one that acts. -/
structure Acts (settings : Settings) (before after : SessionTable) (call : SessionCall)
    (next : Option SessionCall) : Prop where
  sound : after.Sound settings
  next : ∀ later, next = some later → later.Knows settings after ∧
    ∀ other : SessionCall, other.Knows settings before → later.Apart settings other
  others : ∀ other : SessionCall, other.Knows settings before → call.Apart settings other →
    other.Knows settings after

/-- No call goes on after an error. -/
theorem statement_thrown (draw : Draw) : (call.statement settings table draw).thrown = none := by
  rcases call with ⟨token, late, _ | session | session⟩ | token | ⟨userId, ipAddress, userAgent⟩
  · rfl
  · simp only [SessionCall.statement]
    split <;> rfl
  · rfl
  · rfl
  · rfl

/-- A statement that ends its call and leaves the issued tokens. -/
theorem Acts.of_extends (sound : after.Sound settings) (grows : Extends before after) :
    Acts settings before after call none where
  sound := sound
  next := by simp
  others _ knows _ := knows.extends grows

theorem statement_acts {draw : Draw} (sound : table.Sound settings)
    (fresh : table.Fresh settings draw) (knows : call.Knows settings table) :
    Acts settings table (call.statement settings table draw).after call
      (call.statement settings table draw).next := by
  cases call with
  | refresh token late point =>
    obtain ⟨seen, knows⟩ := knows
    cases point with
    | findFirst =>
      refine ⟨sound, ?_, fun _ knows _ => knows⟩
      simp only [SessionCall.statement]
      intro later goes
      split at goes
      · cases goes
      · rename_i session found
        split at goes
        · cases goes
          obtain ⟨inside, live⟩ := mem_filter.mp (mem_of_getElem? found)
          have hash : session.refreshTokenHash = settings.sha256 token :=
            (of_decide_eq_true live).1
          refine ⟨⟨seen, ?_, hash, sound.used session inside, ?_⟩, fun _ _ => trivial⟩
          · -- a late call has nothing to find
            cases late with
            | false => rfl
            | true => exact absurd hash ((sound.out token (knows rfl)).2 session inside)
          · intro row member same
            exact inj_on_of_nodup_map sound.ids member inside same
        · cases goes
    | delete session =>
      obtain ⟨early, hash, used, unique⟩ := knows
      simp only [SessionCall.statement]
      split
      · rename_i present
        obtain ⟨row, inside, same⟩ := any_eq_true.mp present
        have here : session ∈ table.sessions :=
          unique row inside (of_decide_eq_true same) ▸ inside
        have grows := extends_filter table fun row => row.id ≠ session.id
        have gone : SessionTable.Gone settings
            { table with sessions := table.sessions.filter fun row => row.id ≠ session.id }
            token := by
          intro row member again
          obtain ⟨old, other⟩ := mem_filter.mp member
          have equal := inj_on_of_nodup_map sound.hashes old here (again.trans hash.symm)
          simp [equal] at other
        refine ⟨sound.filter _, ?_, fun _ knows _ => knows.extends grows⟩
        rintro later ⟨⟩
        refine ⟨⟨seen, early, gone, ?_⟩, ?_⟩
        · intro issue member again
          exact (sound.spent issue member).2 session here (hash.trans again.symm)
        · rintro (⟨other, _, _ | _ | _⟩ | _ | _) knows
          case create =>
            intro equal
            exact knows.2.2.1 session here (hash.trans equal)
          all_goals trivial
      · exact .of_extends sound (extends_refl table)
    | create session =>
      obtain ⟨early, gone, unissued⟩ := knows
      subst early
      have grows := extends_create fresh session.userId session.ipAddress session.userAgent
      refine ⟨(sound.create fresh ..).issue (grows.seen seen) (gone.extends seen grows)
        unissued, by simp [SessionCall.statement], ?_⟩
      intro other knows apart
      have later := knows.extends grows
      cases other with
      | refresh second _ point =>
        cases point with
        | create session =>
          refine ⟨later.1, later.2.1, later.2.2.1, ?_⟩
          intro issue member
          rcases mem_cons.mp member with rfl | old
          · exact apart
          · exact later.2.2.2 issue old
        | findFirst | delete session => exact later
      | logout | issueTokens => exact later
  | logout token =>
    refine .of_extends (sound.logout knows) ?_
    exact { extends_filter table _ with loggedOut := subset_cons_self _ _ }
  | issueTokens userId ipAddress userAgent =>
    exact .of_extends (sound.create fresh ..) (extends_create fresh ..)

end Outline

/-! ## Runs -/

/-- For no token are tokens issued twice, and for none that was logged out before the call. Calls
that run in any order exchange each refresh token at most once, and none after its logout. -/
theorem refresh_single_use {settings : Settings} {state : SessionPool}
    (reached : (sessionCalls settings).system.Reachable Unrestricted state) :
    (state.shared.issued.map Issued.refreshToken).Nodup ∧
      ∀ issue ∈ state.shared.issued, issue.late = false := by
  have joint : (refreshing settings).Holds state := by
    refine ProofOutline.reachable reached ?_ ?_ ?_
    · rintro table ⟨sessions, loggedOut, issued⟩
      refine ⟨?_, ?_, ?_, ?_, ?_, ?_, ?_, ?_⟩ <;> simp [sessions, loggedOut, issued]
    · intro before begun shared process holds _ started
      have keeps : ∀ table, Extends before.shared table → table.Sound settings →
          ∀ process : Option SessionCall,
            (∀ later, process = some later → later.Knows settings table ∧
              ∀ other : SessionCall, later.Apart settings other) →
              (refreshing settings).Keeps before before.processes.length table process :=
        fun table grows sound process begins =>
          ⟨sound, fun later goes => (begins later goes).1,
            fun other point _ found => (holds.locals other point found).extends grows,
            fun later _ right goes _ _ => (begins later goes).2 right⟩
      have refl := extends_refl before.shared
      cases begun with
      | refresh token =>
        cases started
        refine keeps
          { before.shared with seen := settings.sha256 token :: before.shared.seen }
          { refl with seen := subset_cons_self _ _ } (holds.global.see _) _ ?_
        rintro later ⟨⟩
        exact ⟨⟨mem_cons_self, fun late => of_decide_eq_true late⟩, fun _ => trivial⟩
      | logout token =>
        cases started
        refine keeps
          { before.shared with seen := settings.sha256 token :: before.shared.seen }
          { refl with seen := subset_cons_self _ _ } (holds.global.see _) _ ?_
        rintro later ⟨⟩
        exact ⟨mem_cons_self, fun _ => trivial⟩
      | issueTokens userId ipAddress userAgent =>
        cases started
        refine keeps before.shared refl holds.global _ ?_
        rintro later ⟨⟩
        exact ⟨trivial, fun _ => trivial⟩
      | setActive active =>
        cases started
        exact keeps { before.shared with active := active } { refl with }
          { holds.global with } none (by simp)
      | wait milliseconds =>
        cases started
        exact keeps { before.shared with now := before.shared.now + milliseconds } { refl with }
          { holds.global with } none (by simp)
    · intro before pid call input shared next holds _ running moved
      have knows := holds.locals pid call running
      have others : ∀ other point, other ≠ pid → before.process? other = some point →
          point.Knows settings before.shared ∧ call.Apart settings point :=
        fun other point different found =>
          ⟨holds.locals other point found,
            holds.apart pid other call point different.symm running found⟩
      simp only [sessionCalls] at moved
      split at moved
      · rename_i fresh
        have acts := statement_acts holds.global fresh knows
        obtain ⟨rfl, ending⟩ | ⟨-, rfl, rfl⟩ := Statement.perform_cases (Option.some.inj moved)
        · have goes : ∀ later, next = some later →
              (call.statement settings before.shared input.answer).next = some later := by
            intro later goes
            rcases ending with ⟨-, rfl⟩ | ⟨-, rfl⟩
            · exact goes
            · rw [statement_thrown] at goes
              cases goes
          exact ⟨acts.sound, fun later again => (acts.next later (goes later again)).1,
            fun other point different found =>
              acts.others point (others other point different found).1
                (others other point different found).2,
            fun later other right again different found =>
              (acts.next later (goes later again)).2 right (others other right different found).1⟩
        · rw [statement_thrown]
          exact ⟨holds.global, by simp, fun other point _ found => holds.locals other point found,
            by simp⟩
      · cases moved
  refine ⟨?_, joint.global.early⟩
  have hashed : ((state.shared.issued.map Issued.refreshToken).map settings.sha256).Nodup := by
    rw [map_map]
    exact joint.global.once
  exact hashed.of_map _

/-- Tokens that are their own hashes, and live a minute. -/
def plainTokens : Settings := ⟨id, 60000⟩

def advances (pid : Nat) (refreshToken sessionId : String) : SessionAction :=
  .advance pid ⟨.done, ⟨0, refreshToken, sessionId⟩⟩

/-- Both calls find the session before either deletes it. -/
theorem refresh_single_use_sample :
    ∃ state : SessionPool, state.shared.issued = [⟨"first", false⟩] ∧
      (state.shared.issued.map Issued.refreshToken).Nodup ∧
        ∀ issue ∈ state.shared.issued, issue.late = false := by
  obtain ⟨state, reachable, issued⟩ := @exists_reachable _ _ (sessionCalls plainTokens).system
    Unrestricted _ ⟨⟨[], [1], 0, [], [], [], []⟩, []⟩ (fun state => state.shared.issued = [⟨"first",
    false⟩]) _ ⟨⟨rfl, rfl, rfl⟩, rfl⟩ [.launch (.issueTokens 1 none none), advances 0 "first" "a",
    .launch (.refresh "first"), .launch (.refresh "first"), advances 1 "b" "b", advances 2 "b" "b",
    advances 1 "b" "b", advances 2 "b" "b", advances 1 "second" "b"] (by decide +kernel)
  exact ⟨state, issued, refresh_single_use reachable⟩

end CryptoVaultHub.Auth.Refresh
