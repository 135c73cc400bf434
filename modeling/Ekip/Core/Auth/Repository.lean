import Ekip.Core.Exceptions

/-!
# Queries and writes of `core/auth/repository.py`

An `UPDATE` says nothing about the rows it finds, and none of these raises but
the inserts, where a unique constraint fails.
-/
namespace Ekip.Core.Auth.Repository

open Ekip.Lib Ekip.Database Ekip.Core

/-- Row-level security shows the rows of the organization in `tenantContext`. -/
def getRefreshTokenByHash (db : Db) (tenantContext : Uuid) (tokenHash : String) :
    Option RefreshToken :=
  (Table.get? RefreshToken.tokenHash db.refreshTokens tokenHash).filter
    fun row => row.organizationId = tenantContext

/-- Past row-level security, by a function that returns nothing else. -/
def resolveRefreshTokenOrganizationId (db : Db) (tokenHash : String) : Option Uuid :=
  (Table.get? RefreshToken.tokenHash db.refreshTokens tokenHash).map RefreshToken.organizationId

/-- The two lookups that `refresh`, `logout` and `peek_refresh_token` begin with. -/
def lookupRefreshToken (db : Db) (tokenHash : String) : Option RefreshToken :=
  (resolveRefreshTokenOrganizationId db tokenHash).bind fun tenantContext =>
    getRefreshTokenByHash db tenantContext tokenHash

def getExternalIdentityMapping (db : Db) (organizationId : Uuid) (idpSubject : String) :
    Option ExternalIdentityMapping :=
  db.externalIdentityMappings.find? fun mapping =>
    mapping.organizationId = organizationId ∧ mapping.idpSubject = idpSubject

def insertRefreshToken (row : RefreshToken) : ServiceM RefreshToken := do
  let rows ← Service.read Db.refreshTokens
  Service.raiseIf (rows.any fun other => other.id = row.id ∨ other.tokenHash = row.tokenHash)
    (.integrityError "refresh_tokens")
  Service.write fun db => { db with refreshTokens := db.refreshTokens ++ [row] }
  pure row

def insertExternalIdentityMapping (row : ExternalIdentityMapping) : ServiceM Unit := do
  let rows ← Service.read Db.externalIdentityMappings
  Service.raiseIf (rows.any fun other => other.id = row.id ∨
      (other.organizationId = row.organizationId ∧ other.idpSubject = row.idpSubject))
    (.integrityError "uq_external_identity_org_subject")
  Service.write fun db =>
    { db with externalIdentityMappings := db.externalIdentityMappings ++ [row] }

/-- `UPDATE refresh_tokens SET revoked_at = … WHERE which`. -/
def revokeWhere (which : RefreshToken → Bool) (revokedAt : Instant) : ServiceM Unit :=
  Service.write fun db =>
    { db with
      refreshTokens := Table.updateWhere db.refreshTokens which (fun row => row.revoke revokedAt) }

def revokeRefreshToken (refreshTokenId : Uuid) (revokedAt : Instant) : ServiceM Unit :=
  revokeWhere (fun row => row.id = refreshTokenId) revokedAt

def revokeFamily (familyId : Uuid) (revokedAt : Instant) : ServiceM Unit :=
  revokeWhere (fun row => row.familyId = familyId ∧ row.revokedAt = none) revokedAt

/-- The rows that "log out everywhere" revokes. -/
def activeForUser (userId organizationId : Uuid) (row : RefreshToken) : Bool :=
  row.userId = userId ∧ row.organizationId = organizationId ∧ row.revokedAt = none

/-- Returns the number of rows revoked. -/
def revokeAllForUser (userId organizationId : Uuid) (revokedAt : Instant) : ServiceM Nat := do
  let revoked ← Service.read fun db =>
    (db.refreshTokens.filter (activeForUser userId organizationId)).length
  revokeWhere (activeForUser userId organizationId) revokedAt
  pure revoked

variable {db db' : Db}

/-- Resolving the organization first never hides the row. -/
@[simp] theorem lookupRefreshToken_eq (tokenHash : String) :
    lookupRefreshToken db tokenHash =
      Table.get? RefreshToken.tokenHash db.refreshTokens tokenHash := by
  unfold lookupRefreshToken resolveRefreshTokenOrganizationId getRefreshTokenByHash
  cases Table.get? RefreshToken.tokenHash db.refreshTokens tokenHash <;> simp

@[simp] theorem revokeWhere_returns {which : RefreshToken → Bool} {revokedAt : Instant} {u : Unit} :
    (revokeWhere which revokedAt).Returns db u db' ↔
      { db with
        refreshTokens :=
          Table.updateWhere db.refreshTokens which (fun row => row.revoke revokedAt) } = db' := by
  simp [revokeWhere]

/-- The row goes in if no other row has its id or its hash. -/
theorem insertRefreshToken_returns {row result : RefreshToken} :
    (insertRefreshToken row).Returns db result db' ↔
      (∀ other ∈ db.refreshTokens, other.id ≠ row.id ∧ other.tokenHash ≠ row.tokenHash) ∧
        row = result ∧ { db with refreshTokens := db.refreshTokens ++ [row] } = db' := by
  simp only [insertRefreshToken, Service.bind_returns, Service.read_returns,
    Service.raiseIf_returns, Service.write_returns, Service.pure_returns]
  constructor
  · rintro ⟨_, _, ⟨rfl, rfl⟩, _, _, ⟨hfree, rfl⟩, _, _, rfl, rfl, rfl⟩
    refine ⟨fun other hother => ?_, rfl, rfl⟩
    simpa [not_or] using List.any_eq_false.mp hfree other hother
  · rintro ⟨hfree, rfl, rfl⟩
    have hany : (db.refreshTokens.any fun other =>
        other.id = row.id ∨ other.tokenHash = row.tokenHash) = false := by
      refine List.any_eq_false.mpr fun other hother => ?_
      simpa [not_or] using hfree other hother
    exact ⟨_, _, ⟨rfl, rfl⟩, (), _, ⟨hany, rfl⟩, (), _, rfl, rfl, rfl⟩

theorem insertExternalIdentityMapping_returns {row : ExternalIdentityMapping} {u : Unit}
    (h : (insertExternalIdentityMapping row).Returns db u db') :
    db' = { db with externalIdentityMappings := db.externalIdentityMappings ++ [row] } := by
  simp only [insertExternalIdentityMapping, Service.bind_returns, Service.read_returns,
    Service.raiseIf_returns, Service.write_returns] at h
  obtain ⟨_, _, ⟨rfl, rfl⟩, _, _, ⟨_, rfl⟩, rfl⟩ := h
  rfl

end Ekip.Core.Auth.Repository
