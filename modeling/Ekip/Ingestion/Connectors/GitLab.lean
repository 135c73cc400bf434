import Ekip.Ingestion.Connectors.UpdateOrder

/-!
# The GitLab connector: `ingestion/connectors/gitlab.py`

For each project the issues are listed, and then the merge requests. The header
`x-next-page` names the next page while there is one.
-/
namespace Ekip.Ingestion.GitLab

open Ekip.Lib.Paging Ekip.Database Ekip.Ingestion.UpdateOrder

/-! ## The connector -/

inductive Kind
  | issues
  | mergeRequests
deriving DecidableEq

/-- `kind.rstrip("s")`. -/
def Kind.singular : Kind → String
  | .issues => "issue"
  | .mergeRequests => "merge_request"

structure Issue where
  iid : Nat
  title : String := ""
  description : Option String := none
  labels : List String := []
  webUrl : Option String := none
  state : String := ""
  updatedAt : Instant

def Issue.entry (issue : Issue) : Entry := { id := toString issue.iid, updatedAt := issue.updatedAt }

structure GitLabClient where
  projects : List String

/-- An issue or a merge request with its `_project` and `_kind`. -/
structure RawItem where
  project : String
  kind : Kind
  issue : Issue

structure Cursor where
  projectIndex : Nat := 0
  kind : Kind := .issues
  page : Nat := 1

abbrev GitLabSource := Source (String × Kind) Issue.entry

def perPage : Nat := 100

/-- `updated_after`. -/
def passes (since : Option Instant) (entry : Entry) : Bool := admitsTime since entry.updatedAt

/-- Pages are counted from one. -/
def pageOffset (page : Nat) : Nat := (page - 1) * perPage

/-- The header `x-next-page`. -/
def nextPage (page total : Nat) : Option Nat :=
  if pageOffset page + perPage < total then some (page - 1 + 2) else none

def nextState (state : Cursor) : Option Nat → Cursor
  | some page => { state with page }
  | none =>
    match state.kind with
    | .issues => { state with kind := .mergeRequests, page := 1 }
    | .mergeRequests => { projectIndex := state.projectIndex + 1, kind := .issues, page := 1 }

def fetchBatch (client : GitLabClient) (since : Option Instant) (source : GitLabSource)
    (cursor : Option Cursor) : FetchResult RawItem Cursor Unit :=
  let state := cursor.getD {}
  match client.projects[state.projectIndex]? with
  | none => {}
  | some project =>
    let answer := source.listed (passes since) (project, state.kind)
    let items := (slice (pageOffset state.page) perPage answer).map fun issue =>
      { project, kind := state.kind, issue }
    let next := nextPage state.page answer.length
    let hasMore := next.isSome ∨ state.kind = .issues ∨
      state.projectIndex + 1 < client.projects.length
    { items
      nextCursor := if hasMore then some (nextState state next) else none
      hasMore }

def normalize (rawItem : RawItem) : RawDocument where
  source := "gitlab"
  externalId := rawItem.project ++ ":" ++ rawItem.kind.singular ++ ":" ++ toString rawItem.issue.iid
  content := rawItem.issue.title ++ "\n\n" ++ rawItem.issue.description.getD ""
  title := some rawItem.issue.title
  sourceUrl := rawItem.issue.webUrl
  metadata :=
    ((((AList.insert "project" rawItem.project ∅).insert "kind" rawItem.kind.singular).insert
      "state" rawItem.issue.state).insert "labels" (",".intercalate rawItem.issue.labels)).insert
        "updated" (toString rawItem.issue.updatedAt)

/-! ## Its walk over the projects -/

def Kind.index : Kind → Nat
  | .issues => 0
  | .mergeRequests => 1

def Kind.ofIndex (i : Nat) : Kind := if i = 0 then .issues else .mergeRequests

def plan (client : GitLabClient) : Plan (String × Kind) RawItem Cursor where
  count := 2 * client.projects.length
  container i := client.projects[i / 2]?.map fun project => (project, Kind.ofIndex (i % 2))
  place cursor :=
    (2 * (cursor.getD {}).projectIndex + (cursor.getD {}).kind.index, pageOffset (cursor.getD {}).page)
  shows container id raw :=
    raw.project = container.1 ∧ raw.kind = container.2 ∧ raw.issue.entry.id = id

theorem rising (since : Option Instant) : Rising (passes since) := by
  intro a b hab ha
  cases since with
  | none => rfl
  | some t =>
    have ht : t ≤ a.updatedAt := of_decide_eq_true ha
    exact decide_eq_true (Nat.le_trans ht hab)

theorem index_div (project : Nat) (kind : Kind) : (2 * project + kind.index) / 2 = project := by
  cases kind <;> simp only [Kind.index] <;> omega

theorem index_mod (project : Nat) (kind : Kind) :
    Kind.ofIndex ((2 * project + kind.index) % 2) = kind := by
  cases kind with
  | issues => rw [show (2 * project + Kind.issues.index) % 2 = 0 by simp [Kind.index]]; rfl
  | mergeRequests => rw [show (2 * project + Kind.mergeRequests.index) % 2 = 1 by simp [Kind.index]]; rfl

theorem container_place (client : GitLabClient) (cursor : Option Cursor) :
    (plan client).container ((plan client).place cursor).1 =
      client.projects[(cursor.getD {}).projectIndex]?.map fun project =>
        (project, (cursor.getD {}).kind) := by
  unfold plan
  dsimp only
  rw [index_div, index_mod]

theorem turns (client : GitLabClient) (since : Option Instant) (source : GitLabSource)
    (cursor : Option Cursor) {container : String × Kind}
    (hcontainer : (plan client).container ((plan client).place cursor).1 = some container) :
    (plan client).Turns perPage container (source.ids (passes since) container) cursor
      (fetchBatch client since source cursor) := by
  rw [container_place] at hcontainer
  obtain ⟨project, hproject, rfl⟩ := Option.map_eq_some_iff.mp hcontainer
  have hbound : (cursor.getD {}).projectIndex < client.projects.length :=
    (List.getElem?_eq_some_iff.mp hproject).1
  unfold fetchBatch
  dsimp only
  rw [hproject]
  dsimp only
  constructor
  · intro id hid
    obtain ⟨issue, hissue, rfl⟩ := mem_slice_ids hid
    exact ⟨_, List.mem_map_of_mem hissue, rfl, rfl, rfl⟩
  · rw [nextPage]
    have hlength : (source.ids (passes since) (project, (cursor.getD {}).kind)).length =
        (source.listed (passes since) (project, (cursor.getD {}).kind)).length := List.length_map _
    by_cases hmore : pageOffset (cursor.getD {}).page + perPage <
        (source.listed (passes since) (project, (cursor.getD {}).kind)).length
    · -- the header names the page that begins where this one ends
      rw [if_pos hmore]
      have hsome : (some ((cursor.getD {}).page - 1 + 2)).isSome = true := rfl
      refine .inl ⟨by simp, ?_⟩
      rw [if_pos (Or.inl hsome)]
      show (2 * _ + _, pageOffset ((cursor.getD {}).page - 1 + 2)) = (_, pageOffset _ + perPage)
      have hoffset : pageOffset ((cursor.getD {}).page - 1 + 2) =
          pageOffset (cursor.getD {}).page + perPage := by
        unfold pageOffset perPage
        omega
      rw [hoffset]
      rfl
    · rw [if_neg hmore]
      refine .inr ⟨List.drop_eq_nil_of_le (by rw [hlength]; exact Nat.le_of_not_lt hmore), ?_⟩
      intro hlater
      have hcount : 2 * (cursor.getD {}).projectIndex + (cursor.getD {}).kind.index + 1 <
          2 * client.projects.length := hlater
      cases hkind : (cursor.getD {}).kind with
      | issues =>
        refine ⟨by simp, ?_⟩
        rw [if_pos (Or.inr (Or.inl rfl))]
        show (plan client).place (some (nextState (cursor.getD {}) none)) = _
        rw [nextState, hkind]
        show (2 * (cursor.getD {}).projectIndex + 1, 0) =
          (2 * (cursor.getD {}).projectIndex + (cursor.getD {}).kind.index + 1, 0)
        rw [hkind]
        rfl
      | mergeRequests =>
        have hnext : (cursor.getD {}).projectIndex + 1 < client.projects.length := by
          rw [hkind] at hcount
          have hindex : Kind.mergeRequests.index = 1 := rfl
          omega
        refine ⟨by simp [hnext], ?_⟩
        rw [if_pos (Or.inr (Or.inr hnext))]
        show (plan client).place (some (nextState (cursor.getD {}) none)) = _
        rw [nextState, hkind]
        show (2 * ((cursor.getD {}).projectIndex + 1), 0) =
          (2 * (cursor.getD {}).projectIndex + (cursor.getD {}).kind.index + 1, 0)
        rw [hkind]
        rfl

/-- A project and a kind that the walk goes through. -/
theorem container_of_project {client : GitLabClient} {project : String} (kind : Kind)
    (h : project ∈ client.projects) :
    ∃ i < (plan client).count, (plan client).container i = some (project, kind) := by
  obtain ⟨i, hi, rfl⟩ := List.mem_iff_getElem.mp h
  refine ⟨2 * i + kind.index, ?_, ?_⟩
  · show 2 * i + kind.index < 2 * client.projects.length
    have hindex : kind.index ≤ 1 := by cases kind <;> decide
    omega
  · unfold plan
    dsimp only
    rw [index_div, index_mod, List.getElem?_eq_getElem hi]
    rfl

theorem pages (client : GitLabClient) (since : Option Instant) :
    ((plan client).layout Issue.entry (passes since)).Pages (fetchBatch client since) := by
  refine Plan.pages perPage rfl ?_ fun source cursor container hcontainer =>
    turns client since source cursor hcontainer
  intro i hi
  have hproject : i / 2 < client.projects.length := by
    have hcount : i < 2 * client.projects.length := hi
    omega
  exact ⟨_, congrArg (Option.map _) (List.getElem?_eq_getElem hproject)⟩

end Ekip.Ingestion.GitLab
