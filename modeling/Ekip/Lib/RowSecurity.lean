import Ekip.Lib.Query
import Mathlib.Data.List.ReduceOption

/-!
# Tables under row-level security

Rows stand under ids in tables; a row may name a tenant and, as its foreign key, a row of
another table. A policy compares the tenant of a row, or that of the row its foreign key
names, with the tenant that the transaction has set. A statement is shown the rows that the
policies admit, and may write no other.
-/
namespace Ekip.Lib.RowSecurity

variable {ι κ ω ν α : Type}

inductive Policy (ι : Type)
  | unrestricted
  /-- The column of the row itself. -/
  | direct
  /-- The column of the row of `parent` that the foreign key names. -/
  | through (parent : ι)
deriving DecidableEq

structure Row (κ ω ν : Type) where
  tenant : Option ω := none
  foreignKey : Option κ := none
  content : ν

abbrev Tables (ι κ ω ν : Type) := ι → κ → Option (Row κ ω ν)

/-- The tenant that the policy of a table finds for a row. -/
def owner (policy : ι → Policy ι) (db : Tables ι κ ω ν) (table : ι) (row : Row κ ω ν) : Option ω :=
  match policy table with
  | .unrestricted => none
  | .direct => row.tenant
  | .through parent => (row.foreignKey.bind (db parent)).bind Row.tenant

/-- What a statement asks for itself; what foreign keys do to other rows is not among it. -/
inductive Write (ι κ ω ν : Type)
  | insert (table : ι) (id : κ) (row : Row κ ω ν)
  | update (table : ι) (id : κ) (row : Row κ ω ν)
  | delete (table : ι) (id : κ)

inductive Violation
  | rowSecurity
  | duplicateKey

/-- What is put under an id, or that nothing is left there. -/
structure Put (ι κ ω ν : Type) where
  table : ι
  id : κ
  row : Option (Row κ ω ν)

/-- What a statement answers and writes, by the rows that it is shown. -/
structure Statement (ι κ ω ν α : Type) where
  run : Tables ι κ ω ν → α × List (Write ι κ ω ν)

section Statements

variable [DecidableEq ω] (policy : ι → Policy ι) (db : Tables ι κ ω ν) (context : Option ω)

/-- The expression of the policy, for a row that is read and for one that is written. A
comparison with a tenant that is not set holds of no row. -/
def admits (table : ι) (row : Row κ ω ν) : Bool :=
  match policy table with
  | .unrestricted => true
  | .direct => context.isSome && decide (row.tenant = context)
  | .through parent =>
    (row.foreignKey.bind (db parent)).any fun parentRow =>
      context.isSome && decide (parentRow.tenant = context)

/-- The rows that a statement is shown. -/
def seen : Tables ι κ ω ν := fun table id => (db table id).filter (admits policy db context table)

/-- What a write puts into the tables. A row that is not shown is not found. -/
def Write.effect : Write ι κ ω ν → Except Violation (Option (Put ι κ ω ν))
  | .insert table id row =>
    if (db table id).isSome then .error .duplicateKey
    else if admits policy db context table row then .ok (some { table, id, row := some row })
    else .error .rowSecurity
  | .update table id row =>
    if (seen policy db context table id).isNone then .ok none
    else if admits policy db context table row then .ok (some { table, id, row := some row })
    else .error .rowSecurity
  | .delete table id => .ok ((seen policy db context table id).map fun _ => { table, id, row := none })

/-- The policies are asked about the tables as the statement has found them. -/
def Statement.execute (statement : Statement ι κ ω ν α) : Except Violation (α × List (Put ι κ ω ν)) := do
  let (answer, writes) := statement.run (seen policy db context)
  let puts ← writes.mapM (Write.effect policy db context)
  return (answer, puts.reduceOption)

/-- A put that replaces no row of another tenant and makes none. -/
structure Own (p : Put ι κ ω ν) : Prop where
  before : ∀ row, db p.table p.id = some row → context.isSome ∧ owner policy db p.table row = context
  after : ∀ row, p.row = some row → context.isSome ∧ owner policy db p.table row = context

variable {policy db context} {table : ι} {id : κ} {row : Row κ ω ν}

theorem owner_of_admits (htable : policy table ≠ .unrestricted)
    (h : admits policy db context table row = true) :
    context.isSome ∧ owner policy db table row = context := by
  unfold admits at h
  unfold owner
  cases hpolicy : policy table with
  | unrestricted => exact absurd hpolicy htable
  | direct =>
    rw [hpolicy] at h
    simpa using h
  | through parent =>
    rw [hpolicy] at h
    obtain ⟨parentRow, hparent, hsame⟩ := (Option.any_eq_true _ _).mp h
    dsimp only
    rw [hparent]
    simpa using hsame

theorem owner_of_seen (htable : policy table ≠ .unrestricted)
    (h : seen policy db context table id = some row) :
    db table id = some row ∧ context.isSome ∧ owner policy db table row = context := by
  obtain ⟨hrow, hadmits⟩ := Option.filter_eq_some_iff.mp h
  exact ⟨hrow, owner_of_admits htable hadmits⟩

/-- A row that is shown is the one that the put replaces. -/
theorem Own.of_seen {p : Put ι κ ω ν} (htable : policy p.table ≠ .unrestricted)
    (h : seen policy db context p.table p.id = some row)
    (hafter : ∀ row, p.row = some row → admits policy db context p.table row = true) :
    Own policy db context p := by
  obtain ⟨hrow, howner⟩ := owner_of_seen htable h
  refine ⟨fun found hfound => ?_, fun found hfound => owner_of_admits htable (hafter found hfound)⟩
  obtain rfl := Option.some.inj (hrow.symm.trans hfound)
  exact howner

theorem Write.effect_own {w : Write ι κ ω ν} {p : Put ι κ ω ν} (h : w.effect policy db context = .ok (some p))
    (htable : policy p.table ≠ .unrestricted) : Own policy db context p := by
  cases w with
  | insert table id row =>
    dsimp only [Write.effect] at h
    split at h
    case isTrue => cases h
    case isFalse hunused =>
      split at h
      case isFalse => cases h
      case isTrue hadmits =>
        obtain rfl := Option.some.inj (Except.ok.inj h)
        refine ⟨fun found hfound => absurd (Option.isSome_of_eq_some hfound) hunused, fun found hfound => ?_⟩
        obtain rfl := Option.some.inj hfound
        exact owner_of_admits htable hadmits
  | update table id row =>
    dsimp only [Write.effect] at h
    split at h
    case isTrue => cases h
    case isFalse hseen =>
      split at h
      case isFalse => cases h
      case isTrue hadmits =>
        obtain rfl := Option.some.inj (Except.ok.inj h)
        obtain ⟨shown, hshown⟩ := Option.ne_none_iff_exists'.mp (Option.isNone_iff_eq_none.not.mp hseen)
        exact .of_seen htable hshown fun found hfound => Option.some.inj hfound ▸ hadmits
  | delete table id =>
    obtain ⟨shown, hshown, rfl⟩ := Option.map_eq_some_iff.mp (Except.ok.inj h)
    exact .of_seen htable hshown fun found hfound => by cases hfound

/-- Whatever a statement asks for, it writes nothing of another tenant. -/
theorem Statement.execute_own {statement : Statement ι κ ω ν α} {answer : α} {puts : List (Put ι κ ω ν)}
    (h : statement.execute policy db context = .ok (answer, puts)) {p : Put ι κ ω ν} (hp : p ∈ puts)
    (htable : policy p.table ≠ .unrestricted) : Own policy db context p := by
  obtain ⟨made, hmade, hpure⟩ := Query.bind_ok.mp h
  cases hpure
  obtain ⟨w, -, hw⟩ := Query.mem_of_mapM_ok hmade (List.reduceOption_mem_iff.mp hp)
  exact Write.effect_own hw htable

end Statements

end Ekip.Lib.RowSecurity
