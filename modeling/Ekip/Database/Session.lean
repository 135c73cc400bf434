import Ekip.Database.Models
import Ekip.Lib.RowSecurity
import Ekip.Lib.Run
import Mathlib.Data.List.Induction

/-!
# Tenant isolation in the database

The row-level policies of `database/migrations/versions`, and the sessions of
`database/session.py` that work on pooled connections. A setting made by
`set_tenant_context` lasts until the transaction ends. That a statement may wait for another
transaction is left out, which leaves more interleavings, not fewer. Outside are the
`SECURITY DEFINER` functions of revisions `d2e5f8a3c1b6`, `c5e2a9f4d7b3` and `f6a7b8c9d0e1`,
roles with `BYPASSRLS`, savepoints, and that a setting that was once made is the empty string,
not null, after its transaction (a statement that casts it then fails).
-/
namespace Ekip.Database.Session

open Ekip.Lib Ekip.Lib.RowSecurity

/-! ## Policies -/

inductive TableName
  | organizations
  | projects
  | ssoConfigurations
  | externalIdentityMappings
  | connectorConfigs
  | projectMemberships
  | organizationAccessRules
  | invitations
  | users
  | roles
  | permissions
  | rolePermissions
  | userRoles
  | incidents
  | incidentTimeline
  | postmortems
  | auditLogs
  | ingestionJobs
  | documents
  | documentMetadata
  | agentExecutions
  | knowledgeGapReports
  | refreshTokens
  | documentationChunks
  | codeChunks
  | conversationsChunks
  | incidentsChunks
  | agentMemories
  | knowledgeGraphEdges
  | proactiveFindings
  | proactiveFindingEvidence
  | mcpRequests
  | oauthClients
deriving DecidableEq

abbrev Policies := TableName → Policy TableName

/-- `CREATE POLICY tenant_isolation`, on a table that has none. -/
def createPolicy (policies : Policies) (table : TableName) (policy : Policy TableName) : Policies :=
  Function.update policies table policy

/-- `_DIRECT_TABLES` of revision `c7d4e8f19a2b`. -/
def directTables : List TableName :=
  [.projects, .ssoConfigurations, .externalIdentityMappings, .connectorConfigs, .organizationAccessRules,
    .invitations, .userRoles, .incidents, .incidentTimeline, .postmortems, .auditLogs, .ingestionJobs,
    .documents, .agentExecutions, .knowledgeGapReports, .refreshTokens, .documentationChunks, .codeChunks,
    .conversationsChunks]

/-- `_JOIN_SCOPED_TABLES`: a table and the one that its foreign key refers to. -/
def joinScopedTables : List (TableName × TableName) :=
  [(.documentMetadata, .documents), (.projectMemberships, .projects)]

/-- `c7d4e8f19a2b_milestone_10_row_level_security`. -/
def rowLevelSecurity (policies : Policies) : Policies :=
  joinScopedTables.foldl (fun policies table => createPolicy policies table.1 (.through table.2))
    (directTables.foldl (fun policies table => createPolicy policies table .direct) policies)

/-- `f1a2b3c4d5e6_agent_memories`. -/
def agentMemories (policies : Policies) : Policies := createPolicy policies .agentMemories .direct

/-- `a7b8c9d0e1f2_knowledge_graph_edges`. -/
def knowledgeGraphEdges (policies : Policies) : Policies := createPolicy policies .knowledgeGraphEdges .direct

/-- `b1c2d3e4f5a6_proactive_findings`. -/
def proactiveFindings (policies : Policies) : Policies :=
  createPolicy (createPolicy policies .proactiveFindings .direct) .proactiveFindingEvidence
    (.through .proactiveFindings)

/-- `d4e5f6a7b8c9_incidents_chunks`. -/
def incidentsChunks (policies : Policies) : Policies := createPolicy policies .incidentsChunks .direct

/-- The revisions that make policies, from the first to the last. -/
def upgradeHead : Policies :=
  incidentsChunks (proactiveFindings (knowledgeGraphEdges (agentMemories (rowLevelSecurity fun _ => .unrestricted))))

/-! ## Sessions on pooled connections -/

variable {σ χ ν α : Type}

/-- What a transaction has written and not committed: a row, or that there is none. -/
abbrev Pending (ν : Type) := TableName → Uuid → Option (Option (Row Uuid Uuid ν))

/-- Who uses a connection, and `app.current_organization_id` on it. -/
structure Connection (σ : Type) where
  holder : Option σ := none
  setting : Option Uuid := none

/-- A session has a connection while it is in a transaction. -/
structure DbSession (χ ν : Type) where
  connection : Option χ := none
  /-- A statement has failed: every other fails until the transaction ends. -/
  aborted : Bool := false
  pending : Pending ν := fun _ _ => none

structure World (σ χ ν : Type) where
  committed : Tables TableName Uuid Uuid ν
  connections : χ → Connection σ := fun _ => {}
  sessions : σ → DbSession χ ν := fun _ => {}

/-- A process that starts on these tables. -/
def World.start (committed : Tables TableName Uuid Uuid ν) : World σ χ ν := { committed }

inductive Action (σ χ ν α : Type)
  /-- The first statement of a transaction takes a connection out of the pool. -/
  | checkout (session : σ) (connection : χ)
  | setTenantContext (session : σ) (organizationId : Uuid)
  /-- `referential` is what the foreign keys of the rows deleted do to other rows (`ON DELETE
  CASCADE`, `SET NULL`). No policy is asked about it. -/
  | execute (session : σ) (statement : Statement TableName Uuid Uuid ν α)
      (referential : List (Put TableName Uuid Uuid ν))
  | commit (session : σ)
  | rollback (session : σ)

def Action.session : Action σ χ ν α → σ
  | .checkout session _ => session
  | .setTenantContext session _ => session
  | .execute session _ _ => session
  | .commit session => session
  | .rollback session => session

def Pending.put (pending : Pending ν) (p : Put TableName Uuid Uuid ν) : Pending ν := fun table id =>
  if table = p.table ∧ id = p.id then some p.row else pending table id

namespace World

variable (world : World σ χ ν) (session : σ)

/-- The rows as the session's transaction has left them. -/
def view : Tables TableName Uuid Uuid ν := fun table id =>
  ((world.sessions session).pending table id).getD (world.committed table id)

def setting : Option Uuid := (world.sessions session).connection.bind fun c => (world.connections c).setting

/-- The rows that a statement of the session is shown. -/
def shownTo : Tables TableName Uuid Uuid ν := seen upgradeHead (world.view session) (world.setting session)

variable [DecidableEq σ] [DecidableEq χ]

def withSession (dbSession : DbSession χ ν) : World σ χ ν :=
  { world with sessions := fun other => if other = session then dbSession else world.sessions other }

def withConnection (c : χ) (connection : Connection σ) : World σ χ ν :=
  { world with connections := fun d => if d = c then connection else world.connections d }

/-- The transaction ends: its setting is gone, its connection goes back to the pool. -/
def endTransaction (c : χ) : World σ χ ν := (world.withConnection c {}).withSession session {}

end World

section Step

variable [DecidableEq σ] [DecidableEq χ]

def step (world : World σ χ ν) : Action σ χ ν α → Option (World σ χ ν)
  | .checkout session c =>
    if (world.sessions session).connection = none ∧ (world.connections c).holder = none then
      some ((world.withConnection c { world.connections c with holder := some session }).withSession session
        { world.sessions session with connection := some c })
    else none
  | .setTenantContext session organizationId =>
    match (world.sessions session).connection with
    | none => none
    | some c =>
      if (world.sessions session).aborted then none
      else some (world.withConnection c { world.connections c with setting := some organizationId })
  | .execute session statement referential =>
    if (world.sessions session).connection = none ∨ (world.sessions session).aborted then none
    else
      match statement.execute upgradeHead (world.view session) (world.setting session) with
      | .error _ => some (world.withSession session { world.sessions session with aborted := true })
      | .ok (_, puts) =>
        -- only a deletion has referential actions
        if referential.isEmpty ∨ puts.any fun p => p.row.isNone then
          some (world.withSession session { world.sessions session with
            pending := (puts ++ referential).foldl Pending.put (world.sessions session).pending })
        else none
  | .commit session =>
    match (world.sessions session).connection with
    | none => none
    | some c =>
      -- the commit of a failed transaction rolls it back
      if (world.sessions session).aborted then some (world.endTransaction session c)
      else some { world.endTransaction session c with committed := world.view session }
  | .rollback session =>
    match (world.sessions session).connection with
    | none => none
    | some c => some (world.endTransaction session c)

end Step

variable [DecidableEq σ]

/-- What `set_tenant_context` was called with in the present transaction of a session, the last
call first, after one more step. -/
def entering (session : σ) (organizationIds : List Uuid) (action : Action σ χ ν α) : List Uuid :=
  if action.session = session then
    match action with
    | .setTenantContext _ organizationId => organizationId :: organizationIds
    | .commit _ => []
    | .rollback _ => []
    | _ => organizationIds
  else organizationIds

def entered (session : σ) (actions : List (Action σ χ ν α)) : List Uuid :=
  actions.foldl (entering session) []

theorem entered_append (session : σ) (actions : List (Action σ χ ν α)) (action : Action σ χ ν α) :
    entered session (actions ++ [action]) = entering session (entered session actions) action :=
  List.foldl_append

/-! ## The invariant -/

section Invariant

variable {actions : List (Action σ χ ν α)} {world world' : World σ χ ν} {session : σ}

/-- After these steps. A setting is what its session has entered last. -/
structure Inv (actions : List (Action σ χ ν α)) (world : World σ χ ν) : Prop where
  held : ∀ session c, (world.sessions session).connection = some c → (world.connections c).holder = some session
  unused : ∀ c, (world.connections c).holder = none → (world.connections c).setting = none
  set : ∀ session c, (world.sessions session).connection = some c →
    (world.connections c).setting = (entered session actions).head?
  idle : ∀ session, (world.sessions session).connection = none → entered session actions = []

theorem inv_start {committed : Tables TableName Uuid Uuid ν} :
    Inv ([] : List (Action σ χ ν α)) (World.start committed) where
  held session c hc := by cases hc
  unused c _ := rfl
  set session c hc := by cases hc
  idle session _ := rfl

theorem Inv.setting_eq (hinv : Inv actions world) (session : σ) :
    world.setting session = (entered session actions).head? := by
  unfold World.setting
  cases hc : (world.sessions session).connection with
  | none => rw [hinv.idle session hc]; rfl
  | some c => exact hinv.set session c hc

theorem foldl_put {pending : Pending ν} (puts : List (Put TableName Uuid Uuid ν)) (table : TableName) (id : Uuid) :
    puts.foldl Pending.put pending table id = pending table id ∨
      ∃ p ∈ puts, p.table = table ∧ p.id = id ∧ puts.foldl Pending.put pending table id = some p.row := by
  induction puts generalizing pending with
  | nil => exact .inl rfl
  | cons p puts ih =>
    rcases @ih (pending.put p) with hkept | ⟨q, hq, hput⟩
    · by_cases hkey : table = p.table ∧ id = p.id
      · refine .inr ⟨p, List.mem_cons_self, hkey.1.symm, hkey.2.symm, hkept.trans ?_⟩
        exact if_pos hkey
      · exact .inl (hkept.trans (if_neg hkey))
    · exact .inr ⟨q, List.mem_cons_of_mem _ hq, hput⟩

variable [DecidableEq χ]

/-- Only the session whose transaction ends had the connection. -/
theorem Inv.endTransaction (hinv : Inv actions world) {action : Action σ χ ν α} {c : χ}
    (hc : (world.sessions session).connection = some c)
    (hended : ∀ other, entered other (actions ++ [action]) = if other = session then [] else entered other actions)
    (committed : Tables TableName Uuid Uuid ν) :
    Inv (actions ++ [action]) { world.endTransaction session c with committed } := by
  have hholder := hinv.held session c hc
  constructor <;> simp only [World.endTransaction, World.withConnection, World.withSession, hended]
  case held =>
    intro other d hd
    have hother : other ≠ session := by rintro rfl; simp at hd
    rw [if_neg hother] at hd
    have hheld := hinv.held other d hd
    have hdc : d ≠ c := by rintro rfl; exact hother (Option.some.inj (hheld.symm.trans hholder))
    rwa [if_neg hdc]
  case unused =>
    intro d
    by_cases hdc : d = c
    · simp only [if_pos hdc, implies_true]
    · simpa only [if_neg hdc] using hinv.unused d
  case set =>
    intro other d hd
    have hother : other ≠ session := by rintro rfl; simp at hd
    rw [if_neg hother] at hd ⊢
    have hdc : d ≠ c := by
      rintro rfl
      exact hother (Option.some.inj ((hinv.held other d hd).symm.trans hholder))
    rw [if_neg hdc]
    exact hinv.set other d hd
  case idle =>
    intro other
    by_cases hother : other = session
    · simp only [if_pos hother, implies_true]
    · simpa only [if_neg hother] using hinv.idle other

theorem Inv.step (hinv : Inv actions world) {action : Action σ χ ν α} (h : step world action = some world') :
    Inv (actions ++ [action]) world' := by
  cases action with
  | checkout session c =>
    dsimp only [Session.step] at h
    split at h
    case isFalse => cases h
    case isTrue hfree =>
      obtain rfl := Option.some.inj h
      obtain ⟨hnone, hholder⟩ := hfree
      constructor <;> simp only [World.withConnection, World.withSession, entered_append, entering, ite_self]
      -- no other session has the connection, and it has no setting
      case held => grind [hinv.held]
      case unused => grind [hinv.unused]
      case set => grind [hinv.held, hinv.unused, hinv.set, hinv.idle]
      case idle => grind [hinv.idle]
  | setTenantContext session organizationId =>
    dsimp only [Session.step] at h
    split at h
    case h_1 => cases h
    case h_2 c hc =>
      split at h
      case isTrue => cases h
      case isFalse =>
        obtain rfl := Option.some.inj h
        have hholder := hinv.held session c hc
        constructor <;> simp only [World.withConnection, entered_append, entering, Action.session]
        case held => grind [hinv.held]
        case unused => grind [hinv.unused]
        case set =>
          intro other d hd
          by_cases hdc : d = c
          · have hheld := hinv.held other d hd
            grind
          · grind [hinv.set]
        case idle => grind [hinv.idle]
  | execute session statement referential =>
    dsimp only [Session.step] at h
    have hsame : ∀ dbSession : DbSession χ ν, dbSession.connection = (world.sessions session).connection →
        Inv (actions ++ [.execute session statement referential]) (world.withSession session dbSession) := by
      intro dbSession hconnection
      constructor <;> simp only [World.withSession, entered_append, entering, ite_self]
      case held => grind [hinv.held]
      case unused => exact hinv.unused
      case set => grind [hinv.set]
      case idle => grind [hinv.idle]
    split at h
    case isTrue => cases h
    case isFalse =>
      split at h
      case h_1 => exact Option.some.inj h ▸ hsame _ rfl
      case h_2 =>
        split at h
        case isFalse => cases h
        case isTrue => exact Option.some.inj h ▸ hsame _ rfl
  | commit session =>
    have hended : ∀ other, entered other (actions ++ [(.commit session : Action σ χ ν α)]) =
        if other = session then [] else entered other actions := by
      simp only [entered_append, entering, Action.session, eq_comm (a := session), implies_true]
    dsimp only [Session.step] at h
    split at h
    case h_1 => cases h
    case h_2 c hc =>
      split at h
      case isTrue => exact Option.some.inj h ▸ hinv.endTransaction hc hended world.committed
      case isFalse => exact Option.some.inj h ▸ hinv.endTransaction hc hended _
  | rollback session =>
    have hended : ∀ other, entered other (actions ++ [(.rollback session : Action σ χ ν α)]) =
        if other = session then [] else entered other actions := by
      simp only [entered_append, entering, Action.session, eq_comm (a := session), implies_true]
    dsimp only [Session.step] at h
    split at h
    case h_1 => cases h
    case h_2 c hc => exact Option.some.inj h ▸ hinv.endTransaction hc hended world.committed

theorem Inv.exec (hinv : Inv actions world) {later : List (Action σ χ ν α)}
    (h : exec Session.step world later = some world') : Inv (actions ++ later) world' := by
  induction later generalizing actions world with
  | nil =>
    obtain rfl := Option.some.inj h
    rwa [List.append_nil]
  | cons action later ih =>
    obtain ⟨middle, hstep, hrest⟩ := Option.bind_eq_some_iff.mp h
    have hresult := ih (hinv.step hstep) hrest
    rwa [List.append_assoc] at hresult

end Invariant

/-! ## What every interleaving keeps -/

section Isolation

variable [DecidableEq χ] {committed : Tables TableName Uuid Uuid ν} {actions : List (Action σ χ ν α)}
  {world world' : World σ χ ν} {session : σ} {table : TableName} {id : Uuid} {row : Row Uuid Uuid ν}

/-- Whatever the sessions do on whichever connections, a statement is shown rows of one tenant:
the one that its own session has set last in this transaction, and none before it has set one. -/
theorem shown_to_own_tenant (h : exec step (World.start committed) actions = some world)
    (htable : upgradeHead table ≠ .unrestricted) (hshown : world.shownTo session table id = some row) :
    ∃ organizationId, (entered session actions).head? = some organizationId ∧
      owner upgradeHead (world.view session) table row = some organizationId := by
  have hinv : Inv actions world := inv_start.exec h
  obtain ⟨-, hset, howner⟩ := owner_of_seen htable hshown
  rw [hinv.setting_eq] at hset howner
  obtain ⟨organizationId, horganization⟩ := Option.isSome_iff_exists.mp hset
  exact ⟨organizationId, horganization, howner.trans horganization⟩

/-- A session of one of two tenants writes a document. -/
def insertDocument (organizationId id : Nat) : Statement TableName Uuid Uuid Unit Unit where
  run _ := ((), [.insert .documents id { tenant := some organizationId, content := () }])

/-- The second tenant works on the connection that the first has just given back. -/
def twoTenants : List (Action Bool Nat Unit Unit) :=
  [.checkout true 0, .setTenantContext true 7, .execute true (insertDocument 7 1) [], .commit true,
    .checkout false 0, .setTenantContext false 8, .execute false (insertDocument 8 2) []]

theorem twoTenants_run : ∃ world : World Bool Nat Unit,
    exec step (World.start fun _ _ => none) twoTenants = some world ∧
      world.shownTo false .documents 2 = some { tenant := some 8, content := () } ∧
      ∃ next, step world (.execute false (insertDocument 8 3) [] : Action Bool Nat Unit Unit) = some next ∧
        next.view false .documents 3 = some { tenant := some 8, content := () } ∧
        world.view false .documents 3 = none :=
  ⟨_, rfl, rfl, _, rfl, rfl, rfl⟩

theorem shown_to_own_tenant_second : ∃ world : World Bool Nat Unit,
    exec step (World.start fun _ _ => none) twoTenants = some world ∧
      ∃ organizationId, (entered false twoTenants).head? = some organizationId ∧
        owner upgradeHead (world.view false) .documents ⟨some 8, none, ()⟩ = some organizationId := by
  obtain ⟨world, hrun, hshown, -⟩ := twoTenants_run
  exact ⟨world, hrun, shown_to_own_tenant hrun (by decide) hshown⟩

/-- What a statement changes was a row of that tenant, or none, and is one afterwards, except
where a foreign key of a row deleted acts. -/
theorem changed_for_own_tenant (h : exec step (World.start committed) actions = some world)
    {statement : Statement TableName Uuid Uuid ν α} {referential : List (Put TableName Uuid Uuid ν)}
    (hstep : step world (.execute session statement referential : Action σ χ ν α) = some world')
    (hself : ∀ p ∈ referential, p.table = table → p.id ≠ id) (htable : upgradeHead table ≠ .unrestricted)
    (hchanged : world'.view session table id ≠ world.view session table id) :
    ∃ organizationId, (entered session actions).head? = some organizationId ∧
      (∀ row, world.view session table id = some row →
        owner upgradeHead (world.view session) table row = some organizationId) ∧
      ∀ row, world'.view session table id = some row →
        owner upgradeHead (world.view session) table row = some organizationId := by
  have hinv : Inv actions world := inv_start.exec h
  dsimp only [step] at hstep
  split at hstep
  case isTrue => cases hstep
  case isFalse =>
    split at hstep
    case h_1 =>
      obtain rfl := Option.some.inj hstep
      exact absurd (by simp [World.view, World.withSession]) hchanged
    case h_2 answer puts hexecute =>
      split at hstep
      case isFalse => cases hstep
      case isTrue =>
        obtain rfl := Option.some.inj hstep
        have hview : ∀ pending : Pending ν,
            (world.withSession session { world.sessions session with pending }).view session table id =
              (pending table id).getD (world.committed table id) := by
          simp [World.view, World.withSession]
        rw [hview] at hchanged ⊢
        rcases foldl_put (puts ++ referential) table id with hkept | ⟨p, hp, rfl, rfl, hput⟩
        · exact absurd (by rw [hkept]; rfl) hchanged
        · have hown := (List.mem_append.mp hp).resolve_right fun hreferential => hself p hreferential rfl rfl
          obtain ⟨hbefore, hafter⟩ := Statement.execute_own hexecute hown htable
          rw [hinv.setting_eq] at hbefore hafter
          rw [hput, Option.getD_some] at hchanged ⊢
          -- a put that changes something replaces a row or makes one
          have hset : (entered session actions).head?.isSome := by
            cases hrow : p.row with
            | some row => exact (hafter row hrow).1
            | none =>
              obtain ⟨row, hold⟩ := Option.ne_none_iff_exists'.mp (hrow ▸ hchanged.symm)
              exact (hbefore row hold).1
          obtain ⟨organizationId, horganization⟩ := Option.isSome_iff_exists.mp hset
          exact ⟨organizationId, horganization, fun row hrow => (hbefore row hrow).2.trans horganization,
            fun row hrow => (hafter row hrow).2.trans horganization⟩

theorem changed_for_own_tenant_second : ∃ world world' : World Bool Nat Unit,
    exec step (World.start fun _ _ => none) twoTenants = some world ∧
      step world (.execute false (insertDocument 8 3) [] : Action Bool Nat Unit Unit) = some world' ∧
      ∃ organizationId, (entered false twoTenants).head? = some organizationId ∧
        (∀ row, world.view false .documents 3 = some row →
          owner upgradeHead (world.view false) .documents row = some organizationId) ∧
        ∀ row, world'.view false .documents 3 = some row →
          owner upgradeHead (world.view false) .documents row = some organizationId := by
  obtain ⟨world, hrun, -, world', hstep, hafter, hbefore⟩ := twoTenants_run
  refine ⟨world, world', hrun, hstep, changed_for_own_tenant hrun hstep nofun (by decide) ?_⟩
  rw [hafter, hbefore]
  exact nofun

end Isolation

end Ekip.Database.Session
