import CryptoVaultHub.ClientApi.ApiKeyGuard
import CryptoVaultHub.Auth.Tokens
import CryptoVaultHub.CoreWallet.SanctionsSync

/-!
# The project of a request

`ApiKeyAuthGuard` finds the client of a request and, for an API key, its project;
`ProjectScopeGuard` keeps that project, or takes the one of the `X-Project-Id` header, or the only
active one of the client. The project of a key is not looked up, and neither is the header then.
-/

namespace CryptoVaultHub.ClientApi

open Auth List Option

/-! ## Projects -/

inductive ProjectStatus where
  | active
  | archived
  | suspended
  | pendingDeletion
  | deleted
deriving DecidableEq

/-- A row of `projects`; ids are below `2 ^ 53`. -/
structure ProjectRow where
  id : Nat
  clientId : ClientId
  name : String
  slug : String
  isDefault : Bool
  status : ProjectStatus
  createdAt : Nat
deriving DecidableEq

structure ProjectSummary where
  id : Nat
  name : String
  slug : String
  isDefault : Bool
deriving DecidableEq

inductive ScopeFailure where
  | unauthenticated
  | notNumeric
  | notFound (projectId : Int)
  | unusable (projectId : Int) (status : ProjectStatus)
  | noneActive
  | several (projects : List ProjectSummary)
deriving DecidableEq

/-- `parseInt(text, 10)`. -/
def parseInt (text : Text) : Option Int :=
  let visible := text.dropWhile CoreWallet.isWhiteSpace
  let digits := ((if ['-', '+'].contains (visible.headD ' ') then visible.drop 1 else
    visible).takeWhile Char.isDigit)
  if digits = [] then none
  else
    let value := Nat.ofDigitChars 10 digits 0
    some (if visible.headD ' ' = '-' then -value else value)

/-! ## The guards -/

/-- The headers of a request, with its bearer token, and the scopes of its handler. -/
structure ScopedRequest where
  apiKey : Option Text
  bearer : Option Nat
  ip : Option Text
  requiredScopes : List String
  projectHeader : Option Text

/-- What the guards read. -/
structure GuardTables where
  settings : KeySettings
  keys : List ApiKey
  auth : AuthState
  projects : List ProjectRow

/-- The API key of a request, if it is not empty. -/
def ScopedRequest.key? (request : ScopedRequest) : Option Text :=
  request.apiKey.filter fun apiKey => apiKey ≠ []

/-- The header of a request, if it is not empty. -/
def ScopedRequest.header? (request : ScopedRequest) : Option Text :=
  request.projectHeader.filter fun header => header ≠ []

/-- The client of a request, and the project of its key. -/
def ApiKeyAuthGuard.canActivate (tables : GuardTables) (validation : Validation)
    (request : ScopedRequest) : Option (ClientId × Option Nat) :=
  match request.key? with
  | some apiKey =>
    (authenticateWithApiKey tables.settings tables.keys validation
      ⟨apiKey, request.ip, request.requiredScopes⟩).toOption.map fun context =>
        (context.clientId, context.projectId)
  | none => do
    let token ← request.bearer
    if validation.delivered then
      (tables.auth.authenticateWithJwt
        (fun scopes => (checkScopes request.requiredScopes scopes).isOk) token).map (·, none)
    else none

/-- The rows with the default project first, then from the oldest. -/
def activeProjects (projects : List ProjectRow) (clientId : ClientId) : List ProjectRow :=
  (projects.filter fun row => row.clientId = clientId ∧ row.status = .active).mergeSort
    fun first second => (first.isDefault && !second.isDefault) ||
      (first.isDefault == second.isDefault && first.createdAt ≤ second.createdAt)

/-- The project that the handler sees. -/
def ProjectScopeGuard.canActivate (projects : List ProjectRow) (clientId : ClientId)
    (projectId : Option Nat) (header : Option Text) : Except ScopeFailure Nat :=
  if clientId = 0 then .error .unauthenticated
  else
    match projectId, header with
    | some projectId, _ => .ok projectId
    | none, some header =>
      match parseInt header with
      | none => .error .notNumeric
      | some projectId =>
        match projects.find? fun row => (row.id : Int) = projectId ∧ row.clientId = clientId with
        | none => .error (.notFound projectId)
        | some project =>
          if project.status = .active then .ok project.id
          else .error (.unusable projectId project.status)
    | none, none =>
      match activeProjects projects clientId with
      | [] => .error .noneActive
      | [project] => .ok project.id
      | several => .error (.several (several.map fun project =>
          ⟨project.id, project.name, project.slug, project.isDefault⟩))

/-- The client and the project with which a request is handled. -/
def handled (tables : GuardTables) (validation : Validation) (request : ScopedRequest) :
    Option (ClientId × Nat) := do
  let (clientId, projectId) ← ApiKeyAuthGuard.canActivate tables validation request
  let project ←
    (ProjectScopeGuard.canActivate tables.projects clientId projectId request.header?).toOption
  return (clientId, project)

/-! ## Scopes -/

/-- A project of the client that is active. -/
def Usable (projects : List ProjectRow) (clientId : ClientId) (projectId : Nat) : Prop :=
  ∃ row ∈ projects, row.id = projectId ∧ row.clientId = clientId ∧ row.status = .active

/-- The header, if there is one, names the project. -/
def ScopedRequest.Names (request : ScopedRequest) (projectId : Nat) : Prop :=
  ∀ header, request.header? = some header → parseInt header = some (projectId : Int)

/-- The project of the request's key is one that a header could select, and that the header does
not contradict. -/
def KeyFits (tables : GuardTables) (request : ScopedRequest) : Prop :=
  ∀ apiKey key, request.key? = some apiKey →
    findApiKey tables.settings tables.keys apiKey = some key → key.projectId ≠ 0 →
      Usable tables.projects key.clientId key.projectId ∧ request.Names key.projectId

section Paths

variable {projects : List ProjectRow} {clientId : ClientId} {projectId : Nat}

/-- A header selects an active project of the client, the one it names. -/
theorem canActivate_header {header : Text}
    (passes : ProjectScopeGuard.canActivate projects clientId none (some header) =
      .ok projectId) :
    Usable projects clientId projectId ∧ parseInt header = some (projectId : Int) := by
  unfold ProjectScopeGuard.canActivate at passes
  split at passes
  · cases passes
  · cases number : parseInt header with
    | none => simp [number] at passes
    | some named =>
      simp only [number] at passes
      split at passes
      · cases passes
      · rename_i project found
        have both := find?_some found
        obtain ⟨same, own⟩ := of_decide_eq_true both
        split at passes
        · rename_i active
          cases passes
          exact ⟨⟨project, mem_of_find?_eq_some found, rfl, own, active⟩, by rw [same]⟩
        · cases passes

/-- Without a header the only active project of the client is taken. -/
theorem canActivate_single
    (passes : ProjectScopeGuard.canActivate projects clientId none none = .ok projectId) :
    Usable projects clientId projectId := by
  unfold ProjectScopeGuard.canActivate at passes
  split at passes
  · cases passes
  · simp only at passes
    split at passes
    · cases passes
    · rename_i project single
      cases passes
      have member : project ∈ activeProjects projects clientId := by simp [single]
      obtain ⟨stored, fits⟩ := mem_filter.mp (mem_mergeSort.mp member)
      exact ⟨project, stored, rfl, of_decide_eq_true fits⟩
    · cases passes

end Paths

section Requests

variable {tables : GuardTables} {validation : Validation} {request : ScopedRequest}
  {clientId : ClientId} {projectId : Option Nat}

/-- The client and the project of an API key are those of its row. -/
theorem canActivate_key {apiKey : Text} (sent : request.key? = some apiKey)
    (passes : ApiKeyAuthGuard.canActivate tables validation request =
      some (clientId, projectId)) :
    ∃ key, findApiKey tables.settings tables.keys apiKey = some key ∧ clientId = key.clientId ∧
      projectId = if key.projectId = 0 then none else some key.projectId := by
  simp only [ApiKeyAuthGuard.canActivate, sent, authenticateWithApiKey] at passes
  obtain ⟨context, authenticated, same⟩ := map_eq_some_iff.mp passes
  split at authenticated
  · cases authenticated
  · rename_i answer answered
    have read : context = ⟨answer.clientId, answer.scopes, answer.allowedChains,
        answer.projectId⟩ := by
      cases checked : checkScopes request.requiredScopes answer.scopes with
      | error failure => simp [checked, bind, Except.bind, Except.toOption] at authenticated
      | ok _ => simpa [checked, bind, Except.bind, Except.toOption, eq_comm] using authenticated
    unfold ApiKeyAuthGuard.validateApiKey at answered
    split at answered
    · obtain ⟨key, found, valid⟩ := bind_eq_some_iff.mp answered
      split at valid
      · cases valid
        cases same
        rw [read]
        exact ⟨key, found, rfl, rfl⟩
      · cases valid
    · cases answered

/-- A token has no project. -/
theorem canActivate_token (sent : request.key? = none)
    (passes : ApiKeyAuthGuard.canActivate tables validation request =
      some (clientId, projectId)) : projectId = none := by
  simp only [ApiKeyAuthGuard.canActivate, sent] at passes
  obtain ⟨token, -, answered⟩ := bind_eq_some_iff.mp passes
  split at answered
  · obtain ⟨client, -, same⟩ := map_eq_some_iff.mp answered
    cases same
    rfl
  · cases answered

/-- Without a project of the key, the handler sees an active project of the client, the one that
the header names. -/
theorem usable_of_unbound {project : Nat}
    (passes : ProjectScopeGuard.canActivate tables.projects clientId none request.header? =
      .ok project) : Usable tables.projects clientId project ∧ request.Names project := by
  cases sent : request.header? with
  | none =>
    rw [sent] at passes
    exact ⟨canActivate_single passes, fun header named => by cases sent.symm.trans named⟩
  | some header =>
    rw [sent] at passes
    obtain ⟨usable, named⟩ := canActivate_header passes
    refine ⟨usable, fun other same => ?_⟩
    cases sent.symm.trans same
    exact named

end Requests

/-- A request is handled in an active project of its client, the one that its header names, if and
only if its key has no project or one that the header path would take. -/
theorem project_scope_iff (tables : GuardTables) (validation : Validation)
    (request : ScopedRequest) {clientId : ClientId} {projectId : Nat}
    (passes : handled tables validation request = some (clientId, projectId)) :
    (Usable tables.projects clientId projectId ∧ request.Names projectId) ↔
      KeyFits tables request := by
  obtain ⟨⟨client, bound⟩, authenticated, guarded⟩ := bind_eq_some_iff.mp passes
  obtain ⟨project, found, same⟩ := bind_eq_some_iff.mp guarded
  obtain ⟨rfl, rfl⟩ := Prod.mk.inj (Option.some.inj same)
  have resolved : ProjectScopeGuard.canActivate tables.projects client bound request.header? =
      .ok project := by
    cases outcome : ProjectScopeGuard.canActivate tables.projects client bound
        request.header? with
    | error failure => simp [outcome, Except.toOption] at found
    | ok other => simpa [outcome, Except.toOption] using found
  cases sent : request.key? with
  | none =>
    cases canActivate_token sent authenticated
    exact iff_of_true (usable_of_unbound resolved)
      fun apiKey key named => by cases sent.symm.trans named
  | some apiKey =>
    obtain ⟨key, known, rfl, rfl⟩ := canActivate_key sent authenticated
    by_cases unbound : key.projectId = 0
    · rw [if_pos unbound] at resolved
      refine iff_of_true (usable_of_unbound resolved) fun other row named stored bound => ?_
      cases sent.symm.trans named
      cases known.symm.trans stored
      exact absurd unbound bound
    · have seen : project = key.projectId := by
        rw [if_neg unbound] at resolved
        unfold ProjectScopeGuard.canActivate at resolved
        split at resolved
        · cases resolved
        · exact (Except.ok.inj resolved).symm
      subst seen
      constructor
      · intro fits other row named stored bound
        cases sent.symm.trans named
        cases known.symm.trans stored
        exact fits
      · intro fits
        exact fits apiKey key sent known unbound

/-! ## Samples -/

def sampleProject (id : Nat) (status : ProjectStatus) : ProjectRow :=
  ⟨id, 1, "main", "main", true, status, 0⟩

/-- `sampleKey`, of project 5, without its address list; project 5 and an active project 6. -/
def sampleTables (status : ProjectStatus) : GuardTables where
  settings := sampleKeySettings
  keys := [{ sampleKey with ipAllowlist := none }]
  auth := ⟨[], [], [], [], 0, 0, 0, []⟩
  projects := [sampleProject 5 status, sampleProject 6 .active]

def scopedRequest (header : Option String) : ScopedRequest :=
  ⟨some "k".toList, none, none, ["withdrawals:hot"], header.map String.toList⟩

theorem project_scope_sample :
    (Usable (sampleTables .active).projects 1 5 ∧ (scopedRequest (some "5")).Names 5) ↔
      KeyFits (sampleTables .active) (scopedRequest (some "5")) :=
  project_scope_iff (sampleTables .active) ⟨none, true, 0⟩ (scopedRequest (some "5"))
    (by decide +kernel)

/-- The key of a suspended project is let through, and a header does not change its project. -/
theorem project_scope_fails :
    (handled (sampleTables .suspended) ⟨none, true, 0⟩ (scopedRequest none) = some (1, 5) ∧
      ¬ Usable (sampleTables .suspended).projects 1 5) ∧
    (handled (sampleTables .active) ⟨none, true, 0⟩ (scopedRequest (some "6")) = some (1, 5) ∧
      ¬ (scopedRequest (some "6")).Names 5) := by
  refine ⟨⟨by decide +kernel, ?_⟩, by decide +kernel, ?_⟩
  · rintro ⟨row, member, id, -, active⟩
    simp only [sampleTables, mem_cons, not_mem_nil, or_false] at member
    rcases member with rfl | rfl
    · cases active
    · cases id
  · intro names
    have other : parseInt "6".toList = some 6 := by decide +kernel
    cases other.symm.trans (names _ rfl)

end CryptoVaultHub.ClientApi
