import Mathlib.Data.List.Induction
import Ekip.Core.Privacy.Service

/-!
# What a completed deletion leaves behind

Runs for one person, by administrators of any organizations, one after the other.
Each finds the invitations through the address in the account, and each erases
that address: whichever run comes first leaves the others nothing to look for.
-/
namespace Ekip.Core.Privacy

open Ekip.Lib Ekip.Database Ekip.Shared Ekip.Core

variable {ε : Type}

/-- One run of an administrator. -/
structure AdminRun where
  actor : Identity
  admin : Users.authorize actor managePermission = true
  outage : Outage
  now : Instant

namespace AdminRun

def organizationId (run : AdminRun) : Uuid := run.actor.organizationId

def execute (run : AdminRun) (userId : Uuid) : PrivacyM ε DeletionResult :=
  executeUserDataDeletion run.outage run.now run.actor userId

end AdminRun

/-- The database after the runs. -/
def after (userId : Uuid) (db : PrivacyDb ε) (runs : List AdminRun) : PrivacyDb ε :=
  runs.foldl (fun db run => (run.execute userId db).2) db

@[simp] theorem after_nil (userId : Uuid) (db : PrivacyDb ε) : after userId db [] = db := rfl

theorem after_snoc (userId : Uuid) (db : PrivacyDb ε) (runs : List AdminRun) (run : AdminRun) :
    after userId db (runs ++ [run]) = (run.execute userId (after userId db runs)).2 := by
  simp only [after, List.foldl_append, List.foldl_cons, List.foldl_nil]

/-- Nothing of the person is left in the organization, and no invitation that
carries `email`. -/
structure Complete (userId organizationId : Uuid) (email : String) (db : PrivacyDb ε) : Prop where
  tokens : ∀ row ∈ db.refreshTokens, Repository.refreshTokenClause userId organizationId row = false
  roles : ∀ row ∈ db.userRoles, Repository.userRoleClause userId organizationId row = false
  memberships : ∀ row ∈ db.projectMemberships,
    Repository.projectMembershipClause userId organizationId db.toDb row = false
  links : ∀ row ∈ db.externalIdentityMappings,
    Repository.externalIdentityMappingClause userId organizationId row = false
  memories : ∀ row ∈ db.agentMemories,
    Repository.userScopedClause userId organizationId row = false
  executions : ∀ row ∈ db.agentExecutions,
    Repository.agentExecutionClause userId organizationId row = false
  record : Repository.isUserAnonymized db.toDb userId = true ∧
    ∀ user ∈ db.users, user.id = userId → Repository.anonymized user = user
  invitations : ∀ row ∈ db.invitations, Repository.invitationClause organizationId email row = false

/-- Some invitation of the organization carries the address. -/
def Carries (organizationId : Uuid) (email : String) (db : PrivacyDb ε) : Prop :=
  ∃ row ∈ db.invitations, Repository.invitationClause organizationId email row = true

/-- A run of the organization replaced the address while the account still had it. -/
def Swept (organizationId : Uuid) (email : String) (runs : List AdminRun) : Prop :=
  Repository.isAnonymizedEmail email = false ∧
    ∃ earlier run later, runs = earlier ++ run :: later ∧ run.organizationId = organizationId ∧
      run.outage .invitationsReceived = none ∧ ∀ run ∈ earlier, run.outage .userRecord ≠ none

theorem not_swept_nil {organizationId : Uuid} {email : String} :
    ¬ Swept organizationId email [] := by
  rintro ⟨_, earlier, run, later, hruns, _⟩
  cases earlier <;> cases hruns

theorem swept_snoc {organizationId : Uuid} {email : String} (runs : List AdminRun)
    (run : AdminRun) :
    Swept organizationId email (runs ++ [run]) ↔ Swept organizationId email runs ∨
      (Repository.isAnonymizedEmail email = false ∧ run.organizationId = organizationId ∧
        run.outage .invitationsReceived = none ∧ ∀ run ∈ runs, run.outage .userRecord ≠ none) := by
  constructor
  · rintro ⟨hemail, earlier, swept, later, hruns, horg, houtage, hearlier⟩
    induction later using List.reverseRecOn with
    | nil =>
      obtain ⟨rfl, hlast⟩ := List.append_inj' hruns rfl
      obtain rfl : run = swept := by simpa using hlast
      exact .inr ⟨hemail, horg, houtage, hearlier⟩
    | append_singleton later last _ =>
      rw [← List.cons_append, ← List.append_assoc] at hruns
      obtain ⟨rfl, _⟩ := List.append_inj' hruns rfl
      exact .inl ⟨hemail, earlier, swept, later, rfl, horg, houtage, hearlier⟩
  · rintro (⟨hemail, earlier, swept, later, rfl, hswept⟩ | ⟨hemail, horg, houtage, hearlier⟩)
    · exact ⟨hemail, earlier, swept, later ++ [run], by simp, hswept⟩
    · exact ⟨hemail, runs, run, [], rfl, horg, houtage, hearlier⟩

/-! ## The placeholder -/

theorem isAnonymizedEmail_anonymizedEmailFor (userId : Uuid) :
    Repository.isAnonymizedEmail (Repository.anonymizedEmailFor userId) = true := by
  have hlist : (Repository.anonymizedEmailFor userId).toList =
      (Repository.anonymizedEmailPrefix ++ toString userId).toList ++
        ("@" ++ Repository.anonymizedEmailDomain).toList := String.toList_append
  unfold Repository.isAnonymizedEmail
  rw [List.isSuffixOf_iff_suffix, hlist]
  exact List.suffix_append _ _

/-! ## What the runs leave of the account -/

section Account

variable {userId organizationId : Uuid} {outage : Outage} {db : PrivacyDb ε} {email : Option String}

/-- No address is found once the account is overwritten. -/
theorem getUserEmail_erased (h : outage .userRecord = none) :
    Repository.getUserEmail (erased outage userId organizationId db email).toDb userId = none := by
  unfold Repository.getUserEmail
  rw [getUser_erased_of_overwritten h]
  cases hget : Repository.getUser db.toDb userId with
  | none => rfl
  | some user =>
    have hid : user.id = userId := (Table.get?_some hget).2
    have hmarked := isAnonymizedEmail_anonymizedEmailFor user.id
    simp [Repository.anonymized, hmarked]

end Account

section Runs

variable {userId : Uuid} {db : PrivacyDb ε}

theorem execute_eq (run : AdminRun) (h : (Repository.getUser db.toDb userId).isSome = true) :
    ∃ result, run.execute userId db =
        (.ok result, erased run.outage userId run.organizationId db
          (Repository.getUserEmail db.toDb userId)) ∧
      (result.status = .completed ↔
        Succeeds run.outage (Repository.getUserEmail db.toDb userId)) :=
  execute_of_permitted run.outage run.now userId db run.actor .userData ⟨rfl, run.admin, h⟩

theorem execute_state (run : AdminRun) (h : (Repository.getUser db.toDb userId).isSome = true) :
    (run.execute userId db).2 = erased run.outage userId run.organizationId db
      (Repository.getUserEmail db.toDb userId) := by
  obtain ⟨result, hrun, _⟩ := execute_eq run h
  rw [hrun]

theorem getUser_after (h : (Repository.getUser db.toDb userId).isSome = true)
    (runs : List AdminRun) :
    (Repository.getUser (after userId db runs).toDb userId).isSome = true := by
  induction runs using List.reverseRecOn with
  | nil => exact h
  | append_singleton runs run ih =>
    rw [after_snoc, execute_state run ih]
    by_cases hrecord : run.outage .userRecord = none
    · rw [getUser_erased_of_overwritten hrecord, Option.isSome_map]
      exact ih
    · unfold Repository.getUser
      rw [users_erased_of_kept hrecord]
      exact ih

/-- Until some run overwrites the account, it is as at the start. -/
theorem users_after (h : (Repository.getUser db.toDb userId).isSome = true) {runs : List AdminRun}
    (hkept : ∀ run ∈ runs, run.outage .userRecord ≠ none) :
    (after userId db runs).users = db.users := by
  induction runs using List.reverseRecOn with
  | nil => rfl
  | append_singleton runs run ih =>
    rw [after_snoc, execute_state run (getUser_after h runs),
      users_erased_of_kept (hkept run (by simp))]
    exact ih fun earlier hearlier => hkept earlier (by simp [hearlier])

/-- From then on there is no address. -/
theorem getUserEmail_after (h : (Repository.getUser db.toDb userId).isSome = true)
    {runs : List AdminRun} (hoverwritten : ∃ run ∈ runs, run.outage .userRecord = none) :
    Repository.getUserEmail (after userId db runs).toDb userId = none := by
  induction runs using List.reverseRecOn with
  | nil =>
    obtain ⟨run, hrun, _⟩ := hoverwritten
    cases hrun
  | append_singleton runs run ih =>
    rw [after_snoc, execute_state run (getUser_after h runs)]
    by_cases hrecord : run.outage .userRecord = none
    · exact getUserEmail_erased hrecord
    · obtain ⟨earlier, hearlier, hnone⟩ := hoverwritten
      have hbefore : earlier ∈ runs := by
        rcases List.mem_append.mp hearlier with hmem | hmem
        · exact hmem
        · rw [List.mem_singleton.mp hmem] at hnone
          exact absurd hnone hrecord
      have hemail := ih ⟨earlier, hbefore, hnone⟩
      unfold Repository.getUserEmail Repository.getUser at hemail ⊢
      rw [users_erased_of_kept hrecord]
      exact hemail

/-- The address is found while the account has it, unless it is a placeholder. -/
theorem getUserEmail_cases {user : User} (hget : Repository.getUser db.toDb userId = some user)
    (runs : List AdminRun) :
    (Repository.getUserEmail (after userId db runs).toDb userId = some user.email ∧
        Repository.isAnonymizedEmail user.email = false ∧
        ∀ run ∈ runs, run.outage .userRecord ≠ none) ∨
      (Repository.getUserEmail (after userId db runs).toDb userId = none ∧
        ¬ (Repository.isAnonymizedEmail user.email = false ∧
          ∀ run ∈ runs, run.outage .userRecord ≠ none)) := by
  have hsome : (Repository.getUser db.toDb userId).isSome = true := by
    rw [hget]
    rfl
  by_cases hkept : ∀ run ∈ runs, run.outage .userRecord ≠ none
  · have hemail : Repository.getUserEmail (after userId db runs).toDb userId =
        (some user.email).filter fun email => !Repository.isAnonymizedEmail email := by
      unfold Repository.getUserEmail Repository.getUser at *
      rw [users_after hsome hkept, hget]
      rfl
    rw [hemail]
    by_cases hmarked : Repository.isAnonymizedEmail user.email = true
    · right
      simp [hmarked]
    · left
      rw [Bool.not_eq_true] at hmarked
      exact ⟨by simp [hmarked], hmarked, hkept⟩
  · right
    refine ⟨getUserEmail_after hsome ?_, fun h => hkept h.2⟩
    simpa using hkept

end Runs

/-! ## Invitations -/

section Invitations

variable {userId organizationId other : Uuid} {outage : Outage} {db : PrivacyDb ε} {email : String}

theorem carries_of_unswept {found : Option String}
    (h : ¬ (found = some email ∧ outage .invitationsReceived = none))
    (hfound : found = none ∨ found = some email) :
    Carries organizationId email (erased outage userId other db found) ↔
      Carries organizationId email db := by
  have hrows : (erased outage userId other db found).invitations = db.invitations := by
    show keptInvitations outage userId other found db.invitations = db.invitations
    rcases hfound with rfl | rfl
    · rfl
    · rcases settled_or outage .invitationsReceived db.invitations (Table.updateWhere db.invitations
        (Repository.invitationClause other email)
        (fun row => { row with email := Repository.anonymizedEmailFor userId })) with
        hold | ⟨houtage, _⟩
      · exact hold
      · exact absurd ⟨rfl, houtage⟩ h
  unfold Carries
  rw [hrows]

/-- The step for the address leaves it on the invitations of other organizations only. -/
theorem carries_of_swept (hmarked : Repository.isAnonymizedEmail email = false)
    (houtage : outage .invitationsReceived = none) :
    Carries organizationId email (erased outage userId other db (some email)) ↔
      Carries organizationId email db ∧ other ≠ organizationId := by
  have hplaceholder : Repository.anonymizedEmailFor userId ≠ email := by
    intro hsame
    rw [← hsame, isAnonymizedEmail_anonymizedEmailFor] at hmarked
    cases hmarked
  have hrows : (erased outage userId other db (some email)).invitations =
      Table.updateWhere db.invitations (Repository.invitationClause other email)
        (fun row => { row with email := Repository.anonymizedEmailFor userId }) :=
    settled_of_none houtage
  unfold Carries
  rw [hrows]
  constructor
  · rintro ⟨row, hrow, hclause⟩
    obtain ⟨old, hold, hnew⟩ := Table.mem_updateWhere.mp hrow
    have hboth : row.email = email ∧ row.organizationId = organizationId := by
      simpa [Repository.invitationClause] using hclause
    by_cases hswept : Repository.invitationClause other email old = true
    · rw [if_pos hswept] at hnew
      have hemail := congrArg Invitation.email hnew
      exact absurd (hemail.trans hboth.1) hplaceholder
    · rw [if_neg hswept] at hnew
      obtain rfl := hnew
      refine ⟨⟨old, hold, hclause⟩, fun hsame => hswept ?_⟩
      rw [hsame]
      exact hclause
  · rintro ⟨⟨row, hrow, hclause⟩, hother⟩
    refine ⟨row, Table.mem_updateWhere.mpr ⟨row, hrow, if_neg fun hswept => hother ?_⟩, hclause⟩
    have hhere : row.email = email ∧ row.organizationId = organizationId := by
      simpa [Repository.invitationClause] using hclause
    have hthere : row.email = email ∧ row.organizationId = other := by
      simpa [Repository.invitationClause] using hswept
    exact hthere.2.symm.trans hhere.2

/-- An address that was there stays until a run of the organization sweeps it. -/
theorem carries_after {user : User} (hget : Repository.getUser db.toDb userId = some user)
    (runs : List AdminRun) :
    Carries organizationId user.email (after userId db runs) ↔
      Carries organizationId user.email db ∧ ¬ Swept organizationId user.email runs := by
  have hsome : (Repository.getUser db.toDb userId).isSome = true := by
    rw [hget]
    rfl
  induction runs using List.reverseRecOn with
  | nil => simp [not_swept_nil]
  | append_singleton runs run ih =>
    rw [after_snoc, execute_state run (getUser_after hsome runs), swept_snoc]
    rcases getUserEmail_cases hget runs with ⟨hfound, hmarked, hkept⟩ | ⟨hfound, hlost⟩
    · rw [hfound]
      by_cases houtage : run.outage .invitationsReceived = none
      · refine (carries_of_swept hmarked houtage).trans ?_
        tauto
      · refine (carries_of_unswept (fun h => houtage h.2) (.inr rfl)).trans ?_
        tauto
    · rw [hfound]
      have hsame : Carries organizationId user.email (erased run.outage userId run.organizationId
          (after userId db runs) none) ↔
          Carries organizationId user.email (after userId db runs) :=
        carries_of_unswept (fun h => nomatch h.1) (.inl rfl)
      refine hsame.trans ?_
      tauto

end Invitations

/-! ## A completed run -/

section Completed

variable {userId organizationId : Uuid} {outage : Outage} {db : PrivacyDb ε}

theorem not_clause_of_kept {ρ : Type} {rows : List ρ} {clause : ρ → Bool} :
    ∀ row ∈ rows.filter fun row => !clause row, clause row = false := by
  intro row hrow
  simpa using (List.mem_filter.mp hrow).2

/-- What a run that raised nowhere leaves, invitations apart. -/
theorem complete_iff_of_succeeds {email : String} {found : Option String}
    (hsome : (Repository.getUser db.toDb userId).isSome = true) (h : Succeeds outage found) :
    Complete userId organizationId email (erased outage userId organizationId db found) ↔
      ¬ Carries organizationId email (erased outage userId organizationId db found) := by
  constructor
  · intro hcomplete hcarries
    obtain ⟨row, hrow, hclause⟩ := hcarries
    rw [hcomplete.invitations row hrow] at hclause
    cases hclause
  · intro hfree
    refine ⟨?_, ?_, ?_, ?_, ?_, ?_, ⟨?_, ?_⟩, ?_⟩
    · show ∀ row ∈ settled outage .sessions _ _, _
      rw [settled_of_none h.sessions]
      exact not_clause_of_kept
    · show ∀ row ∈ settled outage .organizationRoles _ _, _
      rw [settled_of_none h.roles]
      exact not_clause_of_kept
    · show ∀ row ∈ settled outage .projectMemberships _ _, _
      rw [settled_of_none h.memberships]
      exact not_clause_of_kept
    · show ∀ row ∈ settled outage .ssoIdentityLinks _ _, _
      rw [settled_of_none h.links]
      exact not_clause_of_kept
    · show ∀ row ∈ settled outage .userPrivateMemory _ _, _
      rw [settled_of_none h.memories]
      exact not_clause_of_kept
    · show ∀ row ∈ settled outage .agentExecutionHistory _ _, _
      rw [settled_of_none h.executions]
      intro row hrow
      obtain ⟨old, _, rfl⟩ := Table.mem_updateWhere.mp hrow
      by_cases hclause : Repository.agentExecutionClause userId organizationId old = true
      · rw [if_pos hclause]
        simp [Repository.agentExecutionClause]
      · rw [if_neg hclause]
        simpa using hclause
    · unfold Repository.isUserAnonymized
      rw [getUser_erased_of_overwritten h.record]
      obtain ⟨user, hget⟩ := Option.isSome_iff_exists.mp hsome
      rw [hget]
      exact isAnonymizedEmail_anonymizedEmailFor user.id
    · show ∀ user ∈ settled outage .userRecord _ _, _
      rw [settled_of_none h.record]
      intro user huser hid
      obtain ⟨old, _, rfl⟩ := Table.mem_updateWhere.mp huser
      by_cases hold : old.id = userId
      · simp [hold, Repository.anonymized]
      · simp [hold] at hid
    · intro row hrow
      by_contra hclause
      exact hfree ⟨row, hrow, by simpa using hclause⟩

/-- A deletion reported as completed is complete exactly if the organization had no
invitation of the address at the start, or one of its runs so far swept the
address before any run erased it from the account. -/
theorem completed_complete_iff (db : PrivacyDb ε) (userId : Uuid) (user : User)
    (hget : Repository.getUser db.toDb userId = some user) (earlier : List AdminRun)
    (run : AdminRun) (result : DeletionResult)
    (hresult : (run.execute userId (after userId db earlier)).1 = .ok result)
    (hcompleted : result.status = .completed) :
    Complete userId run.organizationId user.email (after userId db (earlier ++ [run])) ↔
      ¬ Carries run.organizationId user.email db ∨
        Swept run.organizationId user.email (earlier ++ [run]) := by
  have hsome : (Repository.getUser db.toDb userId).isSome = true := by
    rw [hget]
    rfl
  have hbefore := getUser_after hsome earlier
  obtain ⟨returned, hrun, hstatus⟩ := execute_eq run hbefore
  have hsucceeds : Succeeds run.outage
      (Repository.getUserEmail (after userId db earlier).toDb userId) := by
    rw [hrun] at hresult
    obtain rfl := Except.ok.inj hresult
    exact hstatus.mp hcompleted
  have hcarries : Carries run.organizationId user.email (after userId db (earlier ++ [run])) ↔ _ :=
    carries_after hget (earlier ++ [run])
  rw [after_snoc, execute_state run hbefore] at hcarries ⊢
  rw [complete_iff_of_succeeds hbefore hsucceeds, hcarries]
  tauto

end Completed

/-! ## A retry after a failed step -/

/-- The step that replaces the address raises. -/
def invitationsFail : Outage := fun category =>
  if category = .invitationsReceived then some (.runtimeError "deadlock detected") else none

/-- A run of the administrator of organization 1. -/
def adminRun (outage : Outage) : AdminRun where
  actor := { kind := .user, subject := "9", organizationId := 1, userId := some 9
             permissions := {managePermission} }
  admin := by decide
  outage := outage
  now := 20

def annAccount : User := { id := 7, email := "ann@example.com", displayName := "Ann" }

/-- Ann, with the invitation that she once accepted. -/
def annInvited : PrivacyDb Unit :=
  { users := [annAccount]
    invitations := [{ id := 4, organizationId := 1, email := "ann@example.com", status := .accepted
                      grantsRoleId := 3, invitedBy := 9, expiresAt := 10 }] }

theorem completed_of_smooth (runs : List AdminRun) :
    ∃ result, ((adminRun fun _ => none).execute 7 (after 7 annInvited runs)).1 = .ok result ∧
      result.status = .completed := by
  have hbefore : (Repository.getUser (after 7 annInvited runs).toDb 7).isSome = true :=
    getUser_after rfl runs
  obtain ⟨result, hrun, hstatus⟩ := execute_eq (adminRun fun _ => none) hbefore
  refine ⟨result, congrArg Prod.fst hrun, hstatus.mpr ?_⟩
  exact ⟨rfl, rfl, rfl, rfl, rfl, rfl, fun _ => rfl, rfl⟩

/-- A single run without failures is complete. -/
theorem completed_complete_annInvited :
    Complete 7 1 "ann@example.com" (after 7 annInvited [adminRun fun _ => none]) := by
  obtain ⟨result, hresult, hcompleted⟩ := completed_of_smooth []
  refine (completed_complete_iff annInvited 7 annAccount rfl [] (adminRun fun _ => none) result
    hresult hcompleted).mpr (.inr ?_)
  exact ⟨by decide, [], adminRun fun _ => none, [], rfl, rfl, rfl, by simp⟩

/-- The retry after a failed invitations step reports completion, and the address is
still in the invitation. -/
theorem retry_completed_incomplete :
    (∃ result, ((adminRun fun _ => none).execute 7
        (after 7 annInvited [adminRun invitationsFail])).1 = .ok result ∧
      result.status = .completed) ∧
    ¬ Complete 7 1 "ann@example.com"
      (after 7 annInvited [adminRun invitationsFail, adminRun fun _ => none]) := by
  refine ⟨completed_of_smooth _, fun hcomplete => ?_⟩
  have hcarries : Carries 1 annAccount.email
      (after 7 annInvited [adminRun invitationsFail, adminRun fun _ => none]) := by
    refine (carries_after rfl _).mpr ⟨⟨_, List.mem_singleton.mpr rfl, by decide⟩, fun hswept => ?_⟩
    obtain hswept | ⟨_, _, _, hkept⟩ := (swept_snoc [adminRun invitationsFail] _).mp hswept
    · obtain hswept | ⟨_, _, houtage, _⟩ := (swept_snoc [] _).mp hswept
      · exact not_swept_nil hswept
      · cases houtage
    · exact hkept _ (List.mem_singleton.mpr rfl) rfl
  obtain ⟨row, hrow, hclause⟩ := hcarries
  have hfree := hcomplete.invitations row hrow
  have hsame : Repository.invitationClause 1 annAccount.email row =
      Repository.invitationClause 1 "ann@example.com" row := rfl
  rw [hsame, hfree] at hclause
  cases hclause

end Ekip.Core.Privacy
