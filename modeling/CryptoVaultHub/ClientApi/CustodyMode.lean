import CryptoVaultHub.Withdrawal.Control

/-!
# The custody mode of a project

The project setup writes the mode of a project to `projects.settings`, the client's own update
writes `clients.custody_mode`, and the update of the admin api writes `projects.custody_mode`. When
a withdrawal is approved, `approveWithdrawal` reads the last of the three alone.
-/

namespace CryptoVaultHub.ClientApi

open Withdrawal TransitionSystem List

/-! ## The writers -/

inductive CustodyMode where
  | fullCustody
  | coSign
  | clientOnly
  | clientInitiated
deriving DecidableEq

/-- The values of `clients.custody_mode`. -/
inductive CustodyPolicy where
  | fullCustody
  | coSign
  | selfManaged
deriving DecidableEq

structure CustodyClient where
  id : ClientId
  custodyPolicy : CustodyPolicy
deriving DecidableEq

/-- A row of `projects`; `settingsMode` is the member `custodyMode` of its settings. -/
structure Project where
  id : ProjectId
  clientId : ClientId
  slug : String
  settingsMode : Option CustodyMode
  custodyMode : Option CustodyMode
deriving DecidableEq

/-- A write that was accepted, with the mode it asked for; an admin's update may ask for none. -/
inductive CustodyChoice where
  | setup (projectId : ProjectId) (clientId : ClientId) (mode : CustodyMode)
  | client (clientId : ClientId) (mode : CustodyMode)
  | admin (projectId : ProjectId) (clientId : ClientId) (mode : Option CustodyMode)
deriving DecidableEq

/-- A withdrawal that left `pending_approval` by an approval, the mode that was chosen for its
project then, and whether `createCoSignOperation` was called. -/
structure Approval where
  request : Request
  chosen : Option CustodyMode
  coSigned : Bool

/-- The rows that the services share, the writes accepted so far, the latest first, and the
approvals. -/
structure CustodyState where
  clients : List CustodyClient
  projects : List Project
  nextProject : ProjectId
  shared : Shared
  choices : List CustodyChoice
  approvals : List Approval

namespace CustodyState

/-- `WHERE id = ? AND client_id = ?`. -/
def project? (state : CustodyState) (projectId : ProjectId) (clientId : ClientId) :
    Option Project :=
  state.projects.find? fun project => project.id = projectId ∧ project.clientId = clientId

/-- What `createProject` of the project setup accepts as a mode. -/
def setupModes : List CustodyMode := [.fullCustody, .coSign, .clientOnly]

/-- `createProject` of the project setup: a project of the same slug is used again as it is. -/
def createProject (state : CustodyState) (clientId : ClientId) (slug : String)
    (mode : CustodyMode) : CustodyState :=
  match state.projects.find? fun project => project.clientId = clientId ∧ project.slug = slug with
  | some existing =>
    { state with choices := .setup existing.id clientId mode :: state.choices }
  | none =>
    { state with
      projects := ⟨state.nextProject, clientId, slug, some mode, none⟩ :: state.projects
      nextProject := state.nextProject + 1
      choices := .setup state.nextProject clientId mode :: state.choices }

/-- `create` of the project management, whose settings may name a mode. -/
def create (state : CustodyState) (clientId : ClientId) (slug : String)
    (settingsMode : Option CustodyMode) : Except String CustodyState :=
  if state.clients.all fun client => client.id ≠ clientId then
    .error s!"Client {clientId} not found"
  else if state.projects.any fun project => project.clientId = clientId ∧ project.slug = slug then
    .error s!"Project with slug \"{slug}\" already exists for client {clientId}"
  else
    .ok { state with
      projects := ⟨state.nextProject, clientId, slug, settingsMode, none⟩ :: state.projects
      nextProject := state.nextProject + 1
      choices :=
        (settingsMode.map (CustodyChoice.setup state.nextProject clientId)).toList ++
          state.choices }

/-- `validModes` of `updateCustodyMode`, with what they are at the level of the database. -/
def dbMode : CustodyMode → Option CustodyPolicy
  | .fullCustody => some .fullCustody
  | .coSign => some .coSign
  | .clientInitiated => some .selfManaged
  | .clientOnly => none

/-- `updateCustodyMode` of the security service. -/
def updateCustodyMode (state : CustodyState) (clientId : ClientId) (mode : CustodyMode) :
    Except String CustodyState :=
  match dbMode mode with
  | none => .error "Invalid custody mode. Allowed: full_custody, co_sign, client_initiated"
  | some policy =>
    .ok { state with
      clients := state.clients.map fun client =>
        if client.id = clientId then { client with custodyPolicy := policy } else client
      choices := .client clientId mode :: state.choices }

/-- `UpdateProjectDto`, as far as it is about custody: `settings` with its member `custodyMode`,
and `custodyMode`, each of which may be left out. -/
structure UpdateProject where
  settings : Option (Option CustodyMode)
  custodyMode : Option (Option CustodyMode)

/-- What `update` accepts as a mode. -/
def projectModes : List CustodyMode := [.fullCustody, .coSign]

/-- Why `update` refuses a custody mode. -/
def policyError (state : CustodyState) (existing : Project) : Option String :=
  match state.clients.find? fun client => client.id = existing.clientId with
  | none => some s!"Client {existing.clientId} not found for project {existing.id}"
  | some client =>
    if client.custodyPolicy = .selfManaged then none
    else some
      "custodyMode can only be set on projects whose client has custodyPolicy = self_managed"

def UpdateProject.apply (data : UpdateProject) (project : Project) : Project :=
  { project with
    settingsMode := data.settings.getD project.settingsMode
    custodyMode := data.custodyMode.getD project.custodyMode }

/-- The choices in an update: that of its settings, and over it that of its mode. -/
def UpdateProject.choices (data : UpdateProject) (existing : Project) : List CustodyChoice :=
  (data.custodyMode.map (CustodyChoice.admin existing.id existing.clientId)).toList ++
    (data.settings.join.map (CustodyChoice.setup existing.id existing.clientId)).toList

/-- `update` of the project management. -/
def update (state : CustodyState) (id : ProjectId) (data : UpdateProject) :
    Except String CustodyState :=
  match state.projects.find? fun project => project.id = id with
  | none => .error s!"Project {id} not found"
  | some existing =>
    match data.custodyMode.bind fun _ => state.policyError existing with
    | some message => .error message
    | none =>
      .ok { state with
        projects := state.projects.map fun project =>
          if project.id = id then data.apply project else project
        choices := data.choices existing ++ state.choices }

/-! ## What was chosen -/

/-- The mode of the latest write that is about a project or about its client. An admin's update to
no mode takes back the admin's earlier ones. -/
def latestChoice (projectId : ProjectId) (clientId : ClientId) (cleared : Bool) :
    List CustodyChoice → Option CustodyMode
  | [] => none
  | .setup project client mode :: earlier =>
    if project = projectId ∧ client = clientId then some mode
    else latestChoice projectId clientId cleared earlier
  | .client client mode :: earlier =>
    if client = clientId then some mode else latestChoice projectId clientId cleared earlier
  | .admin project client mode :: earlier =>
    if project = projectId ∧ client = clientId ∧ cleared = false then
      match mode with
      | some mode => some mode
      | none => latestChoice projectId clientId true earlier
    else latestChoice projectId clientId cleared earlier

def chosenMode (state : CustodyState) (projectId : ProjectId) (clientId : ClientId) :
    Option CustodyMode :=
  latestChoice projectId clientId false state.choices

/-- The mode of the latest admin's update of a project. -/
def latestUpdate (projectId : ProjectId) (clientId : ClientId) :
    List CustodyChoice → Option CustodyMode
  | [] => none
  | .admin project client mode :: earlier =>
    if project = projectId ∧ client = clientId then mode
    else latestUpdate projectId clientId earlier
  | .setup _ _ _ :: earlier | .client _ _ :: earlier => latestUpdate projectId clientId earlier

/-! ## The reader -/

/-- `project?.custody_mode === 'co_sign'`. -/
def coSignCustody (state : CustodyState) (projectId : ProjectId) (clientId : ClientId) : Bool :=
  (state.project? projectId clientId).bind Project.custodyMode = some .coSign

end CustodyState

/-- A call of `approveWithdrawal`, which stops where its inputs do, with the points it reaches. -/
def approvalRun (settings : Settings) : List Withdrawal.Input → Shared → ApprovePoint →
    Shared × List ApprovePoint
  | [], shared, point => (shared, [point])
  | input :: rest, shared, point =>
    match (approveWithdrawal settings shared input.answer point).perform shared input.outcome with
    | (after, some (.approve later)) =>
      let (final, points) := approvalRun settings rest after later
      (final, point :: points)
    | (after, _) => (after, [point])

/-- `createCoSignOperation` begins. -/
def ApprovePoint.preparesCoSign : ApprovePoint → Bool
  | .prepare _ => true
  | _ => false

/-- `approveWithdrawal` over the rows as they are. -/
def CustodyState.approveWithdrawal (settings : Settings) (state : CustodyState)
    (id : WithdrawalId) (clientId : ClientId) (inputs : List Withdrawal.Input) : CustodyState :=
  let (shared, points) :=
    approvalRun { settings with coSignCustody := state.coSignCustody } inputs state.shared
      (.read id clientId)
  { state with
    shared := shared
    approvals :=
      match state.shared.findOwned id clientId with
      | some row =>
        if row.status = .pendingApproval ∧ shared.status? id ≠ some .pendingApproval then
          ⟨row.request, state.chosenMode row.request.projectId row.request.clientId,
            points.any ApprovePoint.preparesCoSign⟩ :: state.approvals
        else state.approvals
      | none => state.approvals }

/-! ## Runs -/

inductive CustodyAction where
  | createProject (clientId : ClientId) (slug : String) (mode : CustodyMode)
  | create (clientId : ClientId) (slug : String) (settingsMode : Option CustodyMode)
  | updateCustodyMode (clientId : ClientId) (mode : CustodyMode)
  | update (id : ProjectId) (data : CustodyState.UpdateProject)
  | createWithdrawal (request : Request) (isRejected : Bool)
  | approve (id : WithdrawalId) (clientId : ClientId) (inputs : List Withdrawal.Input)

def CustodyState.step (settings : Settings) (state : CustodyState) :
    CustodyAction → Option CustodyState
  | .createProject clientId slug mode =>
    if setupModes.contains mode then some (state.createProject clientId slug mode) else none
  | .create clientId slug settingsMode => (state.create clientId slug settingsMode).toOption
  | .updateCustodyMode clientId mode => (state.updateCustodyMode clientId mode).toOption
  | .update id data =>
    if data.custodyMode.all fun mode => mode.all projectModes.contains then
      (state.update id data).toOption
    else none
  | .createWithdrawal request isRejected =>
    (start state.shared (.create request isRejected)).map fun (shared, _) =>
      { state with shared := shared }
  | .approve id clientId inputs => some (state.approveWithdrawal settings id clientId inputs)

/-- The services over clients of any custody policy, from no project and no withdrawal. -/
def custodyService (settings : Settings) : TransitionSystem CustodyState CustodyAction where
  Initial state :=
    state.projects = [] ∧ state.shared = .initial ∧ state.choices = [] ∧ state.approvals = []
  step := CustodyState.step settings

/-- Every approval so far called `createCoSignOperation` just when co-sign custody was chosen. -/
def CustodyState.Enforced (state : CustodyState) : Prop :=
  ∀ approval ∈ state.approvals, approval.coSigned = true ↔ approval.chosen = some .coSign

/-! ## The column that is read -/

namespace CustodyState

/-- The column `custody_mode` of the projects holds what the admin's updates asked for. -/
structure Recorded (state : CustodyState) : Prop where
  distinct : (state.projects.map Project.id).Nodup
  bounded : ∀ project ∈ state.projects, project.id < state.nextProject
  column : ∀ projectId clientId,
    (state.project? projectId clientId).bind Project.custodyMode =
      latestUpdate projectId clientId state.choices

variable {state : CustodyState}

theorem initial_recorded {settings : Settings} (valid : (custodyService settings).Initial state) :
    state.Recorded := by
  obtain ⟨projects, -, choices, -⟩ := valid
  constructor
  · simp [projects]
  · simp [projects]
  · simp [project?, latestUpdate, projects, choices]

variable {clientId : ClientId}

/-- A choice that is not an admin's update leaves the latest one what it was. -/
theorem latestUpdate_setups {projectId : ProjectId} {choices earlier : List CustodyChoice}
    (setups : ∀ choice ∈ choices, ∀ project client mode, choice ≠ .admin project client mode) :
    latestUpdate projectId clientId (choices ++ earlier) =
      latestUpdate projectId clientId earlier := by
  induction choices with
  | nil => rfl
  | cons first rest ih =>
    have later := ih fun choice listed => setups choice (mem_cons_of_mem first listed)
    have unlike := setups first mem_cons_self
    cases first with
    | admin project client mode => exact absurd rfl (unlike project client mode)
    | setup => exact later
    | client => exact later

theorem project?_named {projectId : ProjectId} {project : Project}
    (found : state.project? projectId clientId = some project) :
    project.id = projectId ∧ project.clientId = clientId := by
  have named := find?_some found
  exact of_decide_eq_true named

theorem Recorded.latestUpdate_next (recorded : state.Recorded) (clientId : ClientId) :
    latestUpdate state.nextProject clientId state.choices = none := by
  have absent : state.project? state.nextProject clientId = none := by
    apply find?_eq_none.mpr
    intro project listed same
    have below := recorded.bounded project listed
    exact Nat.ne_of_lt below (of_decide_eq_true same).1
  rw [← recorded.column, absent]
  rfl

/-- A new project has no mode in its column, whatever its settings say. -/
theorem Recorded.insert {state : CustodyState} (recorded : state.Recorded) {clientId : ClientId}
    {slug : String} {settingsMode : Option CustodyMode} {choices : List CustodyChoice}
    (setups : ∀ choice ∈ choices, ∀ project client mode, choice ≠ .admin project client mode) :
    Recorded { state with
      projects := ⟨state.nextProject, clientId, slug, settingsMode, none⟩ :: state.projects
      nextProject := state.nextProject + 1
      choices := choices ++ state.choices } := by
  constructor
  · apply nodup_cons.mpr
    refine ⟨?_, recorded.distinct⟩
    intro listed
    obtain ⟨project, present, same⟩ := mem_map.mp listed
    exact Nat.ne_of_lt (recorded.bounded project present) same
  · intro project listed
    rcases mem_cons.mp listed with rfl | present
    · exact Nat.lt_succ_self _
    · exact Nat.lt_succ_of_lt (recorded.bounded project present)
  · intro projectId otherId
    rw [latestUpdate_setups setups]
    simp only [project?, find?_cons]
    split
    · rename_i same
      obtain ⟨rfl, rfl⟩ := of_decide_eq_true same
      exact (recorded.latestUpdate_next _).symm
    · exact recorded.column projectId otherId

theorem createProject_recorded (recorded : state.Recorded) (clientId : ClientId) (slug : String)
    (mode : CustodyMode) : (state.createProject clientId slug mode).Recorded := by
  unfold createProject
  split
  · exact ⟨recorded.distinct, recorded.bounded, recorded.column⟩
  · exact @Recorded.insert state recorded clientId slug (some mode)
      [.setup state.nextProject clientId mode] (by simp)

theorem create_recorded {state after : CustodyState} (recorded : state.Recorded) {slug : String}
    {settingsMode : Option CustodyMode}
    (created : (state.create clientId slug settingsMode).toOption = some after) :
    after.Recorded := by
  unfold create at created
  split at created
  · cases created
  · split at created
    · cases created
    · cases created
      apply recorded.insert
      intro choice listed project client mode
      cases settingsMode with
      | none => cases listed
      | some named =>
        rw [mem_singleton.mp listed]
        simp

theorem updateCustodyMode_recorded {state after : CustodyState} (recorded : state.Recorded)
    {mode : CustodyMode} (updated : (state.updateCustodyMode clientId mode).toOption = some after) :
    after.Recorded := by
  unfold updateCustodyMode at updated
  split at updated
  · cases updated
  · cases updated
    exact ⟨recorded.distinct, recorded.bounded, recorded.column⟩

/-- The project that a client finds under the identifier of another row is that row. -/
theorem Recorded.project?_eq (recorded : state.Recorded) {existing : Project}
    (present : existing ∈ state.projects) (clientId : ClientId) :
    state.project? existing.id clientId =
      if existing.clientId = clientId then some existing else none := by
  have same : ∀ project ∈ state.projects, project.id = existing.id → project = existing := by
    intro project listed named
    exact inj_on_of_nodup_map recorded.distinct listed present named
  split
  · rename_i owned
    cases found : state.project? existing.id clientId with
    | none =>
      have absent := find?_eq_none.mp found existing present
      simp [owned] at absent
    | some project =>
      rw [same project (mem_of_find?_eq_some found) (project?_named found).1]
  · rename_i foreign
    apply find?_eq_none.mpr
    intro project listed matched
    obtain ⟨named, owner⟩ := of_decide_eq_true matched
    rw [same project listed named] at owner
    exact foreign owner

theorem UpdateProject.latestUpdate_choices (data : UpdateProject) (existing : Project)
    (projectId : ProjectId) (clientId : ClientId) (earlier : List CustodyChoice) :
    latestUpdate projectId clientId (data.choices existing ++ earlier) =
      if existing.id = projectId ∧ existing.clientId = clientId then
        data.custodyMode.getD (latestUpdate projectId clientId earlier)
      else latestUpdate projectId clientId earlier := by
  have settled : latestUpdate projectId clientId
      ((data.settings.join.map (CustodyChoice.setup existing.id existing.clientId)).toList ++
        earlier) = latestUpdate projectId clientId earlier := by
    apply latestUpdate_setups
    intro choice listed project client mode
    cases named : data.settings.join <;> simp_all
  unfold UpdateProject.choices
  rw [append_assoc]
  cases data.custodyMode with
  | none => simp [settled]
  | some mode => simp [latestUpdate, settled]

theorem update_recorded {state after : CustodyState} (recorded : state.Recorded)
    {id : ProjectId} {data : UpdateProject}
    (updated : (state.update id data).toOption = some after) : after.Recorded := by
  unfold update at updated
  split at updated
  · cases updated
  · rename_i existing found
    have present := mem_of_find?_eq_some found
    have named : existing.id = id := by simpa using find?_some found
    split at updated
    · cases updated
    · cases updated
      have keeps : ∀ project : Project,
          (if project.id = id then data.apply project else project).id = project.id ∧
          (if project.id = id then data.apply project else project).clientId =
            project.clientId := by
        intro project
        split <;> exact ⟨rfl, rfl⟩
      constructor
      · have untouched : (Project.id ∘ fun project : Project =>
            if project.id = id then data.apply project else project) = Project.id := by
          ext project
          exact (keeps project).1
        rw [map_map, untouched]
        exact recorded.distinct
      · intro project listed
        obtain ⟨before, present, rfl⟩ := mem_map.mp listed
        rw [(keeps before).1]
        exact recorded.bounded before present
      · intro projectId clientId
        have moved : project? { state with
              projects := state.projects.map fun project =>
                if project.id = id then data.apply project else project
              choices := data.choices existing ++ state.choices } projectId clientId =
            (state.project? projectId clientId).map fun project =>
              if project.id = id then data.apply project else project := by
          unfold project?
          rw [find?_map]
          congr 2
          ext project
          simp [keeps]
        rw [moved, UpdateProject.latestUpdate_choices, ← recorded.column]
        by_cases here : existing.id = projectId
        · subst here
          rw [recorded.project?_eq present]
          by_cases owned : existing.clientId = clientId
          · cases asked : data.custodyMode with
            | none => simp [owned, named, UpdateProject.apply, asked]
            | some mode => simp [owned, named, UpdateProject.apply, asked]
          · simp [owned]
        · have elsewhere : ∀ project, state.project? projectId clientId = some project →
              project.id ≠ id := by
            intro project matched same
            exact here (named.trans (same.symm.trans (project?_named matched).1))
          cases matched : state.project? projectId clientId with
          | none => simp [here]
          | some project => simp [here, elsewhere project matched]

end CustodyState

/-! ## One approval -/

/-- The update to 'approved' takes effect. -/
def writes : List Withdrawal.Input → Bool
  | first :: second :: _ => first.outcome = .done && second.outcome ≠ .failed
  | _ => false

/-- The row, the update to 'approved' and the custody mode are read and written without failure. -/
def readsCustody : List Withdrawal.Input → Bool
  | first :: second :: third :: _ =>
    first.outcome = .done && second.outcome = .done && third.outcome = .done
  | _ => false

/-- No statement of an approval makes a withdrawal pending again. -/
theorem approve_write {settings : Settings} {shared after : Shared} {answer : Answer}
    {point : ApprovePoint} {id : WithdrawalId}
    (applied : (Withdrawal.approveWithdrawal settings shared answer point).write.apply shared =
      some after)
    (moved : shared.status? id ≠ some .pendingApproval) :
    after.status? id ≠ some .pendingApproval := by
  rcases status?_apply applied id with same | ⟨status, expected, row, written, -, -, now⟩
  · rwa [same]
  · rw [now]
    cases point with
    | write request =>
      cases written
      simp
    | update operation =>
      cases written
      simp
    | read | custody | prepare | insert | publish => cases written

theorem approvalRun_moved {settings : Settings} (inputs : List Withdrawal.Input) {shared : Shared}
    {point : ApprovePoint} {id : WithdrawalId}
    (moved : shared.status? id ≠ some .pendingApproval) :
    (approvalRun settings inputs shared point).1.status? id ≠ some .pendingApproval := by
  induction inputs generalizing shared point with
  | nil => exact moved
  | cons input rest ih =>
    have performed : ∀ after next,
        (Withdrawal.approveWithdrawal settings shared input.answer point).perform shared
          input.outcome = (after, next) → after.status? id ≠ some .pendingApproval := by
      intro after next performed
      unfold Step.perform at performed
      split at performed
      · split at performed
        · rename_i applied
          cases performed
          exact approve_write applied moved
        · cases performed
          exact moved
      · cases performed
        exact moved
      · cases performed
        cases applied : (Withdrawal.approveWithdrawal settings shared input.answer
            point).write.apply shared with
        | none => exact moved
        | some after => exact approve_write applied moved
    unfold approvalRun
    split
    · rename_i after later step
      exact ih (performed after _ step)
    · rename_i after next _ step
      exact performed after next step

/-- The points of a call begin with the one it is at. -/
theorem approvalRun_point (settings : Settings) (inputs : List Withdrawal.Input) (shared : Shared)
    (point : ApprovePoint) : point ∈ (approvalRun settings inputs shared point).2 := by
  cases inputs with
  | nil => exact mem_singleton.mpr rfl
  | cons input rest =>
    unfold approvalRun
    split <;> exact mem_cons_self

/-- The reading of the custody mode, and where the call goes then. -/
theorem approvalRun_custody {settings : Settings} (inputs : List Withdrawal.Input) {shared : Shared}
    (request : Request) :
    (approvalRun settings inputs shared (.custody request)).2.any
        ApprovePoint.preparesCoSign = true ↔
      settings.coSignCustody request.projectId request.clientId = true ∧
        ∃ third rest, inputs = third :: rest ∧ third.outcome = .done := by
  cases inputs with
  | nil => simp [approvalRun, ApprovePoint.preparesCoSign]
  | cons third rest =>
    cases ends : third.outcome with
    | done =>
      by_cases custody :
          settings.coSignCustody request.projectId request.clientId = true
      · have reached := approvalRun_point settings rest shared (.prepare request)
        have prepares : (approvalRun settings (third :: rest) shared
            (.custody request)).2.any ApprovePoint.preparesCoSign = true := by
          apply any_eq_true.mpr
          refine ⟨.prepare request, ?_, rfl⟩
          simp [approvalRun, Withdrawal.approveWithdrawal, Step.perform, ends, Write.apply,
            custody, reached]
        simp [prepares, custody, ends]
      · simp [approvalRun, Withdrawal.approveWithdrawal, Step.perform, ends, Write.apply,
          custody, ApprovePoint.preparesCoSign]
    | failed | lost =>
      simp [approvalRun, Withdrawal.approveWithdrawal, Step.perform, ends,
        ApprovePoint.preparesCoSign]

/-- The update to 'approved': whether it takes effect, and where the call goes then. -/
theorem approvalRun_write {settings : Settings} (inputs : List Withdrawal.Input) {shared : Shared}
    {request : Request} (pending : shared.status? request.id = some .pendingApproval)
    {first : Withdrawal.Input} (read : first.outcome = .done) :
    let run := approvalRun settings inputs shared (.write request)
    (run.1.status? request.id ≠ some .pendingApproval ↔ writes (first :: inputs)) ∧
      (run.2.any ApprovePoint.preparesCoSign = true ↔
        settings.coSignCustody request.projectId request.clientId = true ∧
          readsCustody (first :: inputs)) := by
  cases inputs with
  | nil => simp [approvalRun, pending, writes, readsCustody, ApprovePoint.preparesCoSign]
  | cons second rest =>
    obtain ⟨after, written⟩ :
        ∃ after, (Write.setStatus request.id .approved none).apply shared = some after :=
      ⟨_, rfl⟩
    have moved : after.status? request.id ≠ some .pendingApproval := by
      rw [status?_setStatus written pending]
      simp
    cases ends : second.outcome with
    | done =>
      have later := @approvalRun_moved settings rest after (.custody request) _ moved
      have custody := @approvalRun_custody settings rest after request
      have continued : approvalRun settings (second :: rest) shared (.write request) =
          ((approvalRun settings rest after (.custody request)).1,
            .write request :: (approvalRun settings rest after (.custody request)).2) := by
        simp [approvalRun, Withdrawal.approveWithdrawal, Step.perform, ends, written]
      have reads : readsCustody (first :: second :: rest) ↔
          ∃ third more, rest = third :: more ∧ third.outcome = .done := by
        cases rest <;> simp [readsCustody, read, ends]
      dsimp only
      rw [continued, reads, ← custody]
      simp [later, writes, read, ends, ApprovePoint.preparesCoSign]
    | failed =>
      have stopped : approvalRun settings (second :: rest) shared (.write request) =
          (shared, [.write request]) := by
        simp [approvalRun, Withdrawal.approveWithdrawal, Step.perform, ends]
      dsimp only
      rw [stopped]
      cases rest <;>
        simp [pending, writes, readsCustody, ends, ApprovePoint.preparesCoSign]
    | lost =>
      have stopped : approvalRun settings (second :: rest) shared (.write request) =
          (after, [.write request]) := by
        simp [approvalRun, Withdrawal.approveWithdrawal, Step.perform, ends, written]
      dsimp only
      rw [stopped]
      cases rest <;>
        simp [moved, writes, readsCustody, read, ends, ApprovePoint.preparesCoSign]

/-- What a call of `approveWithdrawal` on a pending withdrawal of the client leads to. -/
theorem approvalRun_read {settings : Settings} (inputs : List Withdrawal.Input) {shared : Shared}
    {id : WithdrawalId} {clientId : ClientId} {row : WithdrawalRow}
    (owned : shared.findOwned id clientId = some row) (pending : row.status = .pendingApproval) :
    let run := approvalRun settings inputs shared (.read id clientId)
    (run.1.status? id ≠ some .pendingApproval ↔ writes inputs) ∧
      (run.2.any ApprovePoint.preparesCoSign = true ↔
        settings.coSignCustody row.request.projectId row.request.clientId = true ∧
          readsCustody inputs) := by
  have present := (Option.filter_eq_some_iff.mp owned).1
  have named : row.request.id = id := Shared.find?_id present
  have status : shared.status? id = some .pendingApproval := by
    rw [Shared.status?, present, Option.map_some, pending]
  cases inputs with
  | nil => simp [approvalRun, status, writes, readsCustody, ApprovePoint.preparesCoSign]
  | cons first rest =>
    cases ends : first.outcome with
    | done =>
      have continued : approvalRun settings (first :: rest) shared (.read id clientId) =
          ((approvalRun settings rest shared (.write row.request)).1,
            .read id clientId ::
              (approvalRun settings rest shared (.write row.request)).2) := by
        simp [approvalRun, Withdrawal.approveWithdrawal, Step.perform, ends, Write.apply,
          owned, pending]
      have written := @approvalRun_write settings rest shared row.request
        (by rw [named]; exact status) first ends
      dsimp only at written ⊢
      rw [continued, ← written.2, ← written.1, named]
      simp [ApprovePoint.preparesCoSign]
    | failed | lost =>
      have stopped : approvalRun settings (first :: rest) shared (.read id clientId) =
          (shared, [.read id clientId]) := by
        simp [approvalRun, Withdrawal.approveWithdrawal, Step.perform, ends, Write.apply]
      dsimp only
      rw [stopped]
      rcases rest with _ | ⟨second, _ | ⟨third, more⟩⟩ <;>
        simp [status, writes, readsCustody, ends, ApprovePoint.preparesCoSign]

/-! ## Enforcement -/

namespace CustodyState

/-- At an approval that takes effect, the latest admin's update of the project says of co-sign
custody what the latest choice says; where that is co-sign custody, the column is also read. -/
def Agrees (state : CustodyState) : CustodyAction → Prop
  | .approve id clientId inputs =>
    ∀ row ∈ state.shared.findOwned id clientId,
      row.status = .pendingApproval → writes inputs = true →
        (latestUpdate row.request.projectId clientId state.choices = some .coSign ∧
            readsCustody inputs = true ↔
          state.chosenMode row.request.projectId clientId = some .coSign)
  | _ => True

instance (state : CustodyState) (action : CustodyAction) : Decidable (state.Agrees action) :=
  match action with
  | .approve id clientId inputs => inferInstanceAs (Decidable
      (∀ row ∈ state.shared.findOwned id clientId,
        row.status = .pendingApproval → writes inputs = true →
          (latestUpdate row.request.projectId clientId state.choices = some .coSign ∧
              readsCustody inputs = true ↔
            state.chosenMode row.request.projectId clientId = some .coSign)))
  | .createProject _ _ _ | .create _ _ _ | .updateCustodyMode _ _ | .update _ _
  | .createWithdrawal _ _ => inferInstanceAs (Decidable True)

variable {settings : Settings} {state after : CustodyState} {action : CustodyAction}

theorem step_recorded (recorded : state.Recorded)
    (stepped : state.step settings action = some after) : after.Recorded := by
  cases action with
  | createProject clientId slug mode =>
    simp only [step] at stepped
    split at stepped
    · cases stepped
      exact createProject_recorded recorded clientId slug mode
    · cases stepped
  | create clientId slug settingsMode => exact create_recorded recorded stepped
  | updateCustodyMode clientId mode => exact updateCustodyMode_recorded recorded stepped
  | update id data =>
    simp only [step] at stepped
    split at stepped
    · exact update_recorded recorded stepped
    · cases stepped
  | createWithdrawal request isRejected =>
    obtain ⟨begun, -, rfl⟩ := Option.map_eq_some_iff.mp stepped
    exact ⟨recorded.distinct, recorded.bounded, recorded.column⟩
  | approve id clientId inputs =>
    cases stepped
    exact ⟨recorded.distinct, recorded.bounded, recorded.column⟩

/-- What is not an approval leaves the approvals alone. -/
theorem step_approvals (stepped : state.step settings action = some after)
    (unlike : ∀ id clientId inputs, action ≠ .approve id clientId inputs) :
    after.approvals = state.approvals ∧ state.Agrees action := by
  cases action with
  | createProject clientId slug mode =>
    simp only [step] at stepped
    split at stepped
    · cases stepped
      unfold createProject
      split <;> exact ⟨rfl, trivial⟩
    · cases stepped
  | create clientId slug settingsMode =>
    simp only [step, create] at stepped
    split at stepped
    · cases stepped
    · split at stepped
      · cases stepped
      · cases stepped
        exact ⟨rfl, trivial⟩
  | updateCustodyMode clientId mode =>
    simp only [step, updateCustodyMode] at stepped
    split at stepped
    · cases stepped
    · cases stepped
      exact ⟨rfl, trivial⟩
  | update id data =>
    simp only [step, update] at stepped
    repeat' split at stepped
    all_goals cases stepped
    exact ⟨rfl, trivial⟩
  | createWithdrawal request isRejected =>
    obtain ⟨begun, -, rfl⟩ := Option.map_eq_some_iff.mp stepped
    exact ⟨rfl, trivial⟩
  | approve id clientId inputs => exact absurd rfl (unlike id clientId inputs)

theorem approve_enforced {state : CustodyState} (recorded : state.Recorded)
    (enforced : state.Enforced) (id : WithdrawalId) (clientId : ClientId)
    (inputs : List Withdrawal.Input) :
    (state.approveWithdrawal settings id clientId inputs).Enforced ↔
      state.Agrees (.approve id clientId inputs) := by
  cases owned : state.shared.findOwned id clientId with
  | none =>
    simp only [Agrees, owned, Enforced, CustodyState.approveWithdrawal]
    exact ⟨fun _ row impossible => absurd impossible (by simp), fun _ => enforced⟩
  | some row =>
    have client : row.request.clientId = clientId :=
      of_decide_eq_true (Option.filter_eq_some_iff.mp owned).2
    by_cases pending : row.status = .pendingApproval
    · obtain ⟨taken, prepared⟩ := @approvalRun_read
        { settings with coSignCustody := state.coSignCustody } inputs _ _ _ _ owned pending
      have column : state.coSignCustody row.request.projectId clientId = true ↔
          latestUpdate row.request.projectId clientId state.choices = some .coSign := by
        unfold CustodyState.coSignCustody
        rw [recorded.column]
        exact decide_eq_true_iff
      by_cases effective : writes inputs = true
      · have added : (state.approveWithdrawal settings id clientId inputs).Enforced ↔
            ((approvalRun { settings with coSignCustody := state.coSignCustody } inputs
                state.shared (.read id clientId)).2.any ApprovePoint.preparesCoSign = true ↔
              state.chosenMode row.request.projectId clientId = some .coSign) := by
          have recordedNow : (state.approveWithdrawal settings id clientId inputs).approvals =
              ⟨row.request, state.chosenMode row.request.projectId row.request.clientId,
                (approvalRun { settings with coSignCustody := state.coSignCustody } inputs
                  state.shared (.read id clientId)).2.any ApprovePoint.preparesCoSign⟩ ::
                state.approvals := by
            simp [CustodyState.approveWithdrawal, owned, pending, taken.mpr effective]
          unfold Enforced
          rw [recordedNow, forall_mem_cons, client]
          exact and_iff_left enforced
        rw [added, prepared, client, column]
        simp [Agrees, owned, pending, effective]
      · have unchanged : (state.approveWithdrawal settings id clientId inputs).approvals =
            state.approvals := by
          have still := mt taken.mp effective
          simp only [CustodyState.approveWithdrawal, owned]
          exact if_neg fun both => still both.2
        unfold Enforced
        rw [unchanged]
        simp only [Agrees, owned, effective]
        exact ⟨fun _ _ _ _ impossible => absurd impossible (by simp), fun _ => enforced⟩
    · have unchanged : (state.approveWithdrawal settings id clientId inputs).approvals =
          state.approvals := by
        simp [CustodyState.approveWithdrawal, owned, pending]
      unfold Enforced
      rw [unchanged]
      constructor
      · intro _ other same still
        cases owned.symm.trans same
        exact absurd still pending
      · exact fun _ => enforced

theorem step_enforced (recorded : state.Recorded) (enforced : state.Enforced)
    (stepped : state.step settings action = some after) : after.Enforced ↔ state.Agrees action := by
  by_cases approves : ∃ id clientId inputs, action = .approve id clientId inputs
  · obtain ⟨id, clientId, inputs, rfl⟩ := approves
    cases stepped
    exact approve_enforced recorded enforced id clientId inputs
  · obtain ⟨same, agrees⟩ := step_approvals stepped fun id clientId inputs taken =>
      approves ⟨id, clientId, inputs, taken⟩
    unfold Enforced
    rw [same]
    exact iff_of_true enforced agrees

theorem reachable_recorded {Allowed : CustodyState → CustodyAction → Prop} {state : CustodyState}
    (reachable : (custodyService settings).Reachable Allowed state) : state.Recorded := by
  apply reachable.invariant
  · exact fun state valid => initial_recorded valid
  · exact fun before action after recorded _ stepped => step_recorded recorded stepped

end CustodyState

/-- In every run whose approvals find the latest admin's update in agreement with the latest choice,
the chosen custody mode is enforced; and an approval that does not find it so breaks that. -/
theorem chosen_custody_enforced (settings : Settings) :
    (∀ state, (custodyService settings).Reachable CustodyState.Agrees state → state.Enforced) ∧
      ∀ state after action, (custodyService settings).Reachable Unrestricted state →
        state.Enforced → (custodyService settings).step state action = some after →
          (after.Enforced ↔ state.Agrees action) := by
  constructor
  · intro state reachable
    have both : state.Recorded ∧ state.Enforced := by
      apply reachable.invariant
      · intro start valid
        refine ⟨CustodyState.initial_recorded valid, ?_⟩
        simp [CustodyState.Enforced, valid.2.2.2]
      · intro before action after ⟨recorded, enforced⟩ agrees stepped
        exact ⟨CustodyState.step_recorded recorded stepped,
          (CustodyState.step_enforced recorded enforced stepped).mpr agrees⟩
    exact both.2
  · intro state after action reachable enforced stepped
    exact CustodyState.step_enforced (CustodyState.reachable_recorded reachable) enforced stepped

/-! ## Two histories -/

/-- Client 1, with full custody. -/
def oneClient : CustodyState where
  clients := [⟨1, .fullCustody⟩]
  projects := []
  nextProject := 1
  shared := .initial
  choices := []
  approvals := []

theorem oneClient_initial (settings : Settings) : (custodyService settings).Initial oneClient :=
  ⟨rfl, rfl, rfl, rfl⟩

/-- A withdrawal of project 1 is requested and approved. -/
def approvedWithdrawal : List CustodyAction :=
  [.createWithdrawal (Withdrawal.sampleRequest 1) false,
    .approve 1 1 [⟨.done, .nothing⟩, ⟨.done, .nothing⟩, ⟨.done, .nothing⟩]]

/-- The client is self-managed, and an admin gives its project the mode that the client set up. -/
theorem chosen_custody_enforced_sample :
    ∃ state : CustodyState,
      state.approvals.any (fun approval => approval.coSigned) = true ∧ state.Enforced := by
  obtain ⟨state, reachable, coSigned⟩ :=
    @exists_reachable_of_run _ _ (custodyService sampleSettings) CustodyState.Agrees _ oneClient
      (oneClient_initial sampleSettings)
      ([.createProject 1 "treasury" .coSign, .updateCustodyMode 1 .clientInitiated,
        .update 1 ⟨none, some (some .coSign)⟩] ++ approvedWithdrawal)
      (fun state => state.approvals.any fun approval => approval.coSigned)
      (by decide +kernel)
  exact ⟨state, coSigned, (chosen_custody_enforced sampleSettings).1 state reachable⟩

/-- A client sets up a project with co-sign custody, and its withdrawal is approved without. -/
theorem chosen_custody_bypassed :
    ∃ state, (custodyService sampleSettings).Reachable Unrestricted state ∧ ¬ state.Enforced := by
  obtain ⟨state, reachable, bypassed⟩ :=
    @exists_reachable_of_run _ _ (custodyService sampleSettings) Unrestricted _ oneClient
      (oneClient_initial sampleSettings)
      (.createProject 1 "treasury" .coSign :: approvedWithdrawal)
      (fun state => state.approvals.any fun approval =>
        approval.chosen = some .coSign && !approval.coSigned)
      (by decide +kernel)
  refine ⟨state, reachable, fun enforced => ?_⟩
  obtain ⟨approval, listed, unlike⟩ := any_eq_true.mp bypassed
  simp only [Bool.and_eq_true, decide_eq_true_eq, Bool.not_eq_true'] at unlike
  have coSigned := (enforced approval listed).mpr unlike.1
  rw [unlike.2] at coSigned
  cases coSigned

end CryptoVaultHub.ClientApi
