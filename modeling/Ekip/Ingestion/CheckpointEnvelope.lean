import Ekip.Core.Exceptions
import Ekip.Shared.Schemas
import Ekip.Lib.Json
import Ekip.Lib.Datetime

/-!
# The checkpoint as JSON: `ingestion/service.py`

The envelope is stored in the configuration that it fingerprints. It is built from
typed values and decoded from whatever the column holds.
-/
namespace Ekip.Ingestion.CheckpointEnvelope

open Ekip.Lib Ekip.Core Ekip.Shared

abbrev JsonConfig := Dict String Json

def checkpointConfigKey : String := "_ingestion_checkpoint"

def checkpointVersion : Int := 1

/-! ## The fingerprint -/

/-- The keys of the worker start with an underscore. -/
def isOperatorKey (key : String) : Bool := key.toList.head? ≠ some '_'

def operatorConfig (config : JsonConfig) : List (String × Json) :=
  (config.entries.map fun entry => (entry.1, entry.2)).filter fun entry => isOperatorKey entry.1

def fingerprintPayload (source : String) (config : JsonConfig) : List Char :=
  Json.dumps (.obj [("source", .str source), ("config", .obj (operatorConfig config))])

/-- `sha256` is the hexadecimal digest of a text. -/
def connectorConfigFingerprint (sha256 : List Char → String) (source : String)
    (config : JsonConfig) : String :=
  sha256 (fingerprintPayload source config)

/-! ## Building -/

/-- `value if … is not None else None`. -/
def orNull : Option String → Json
  | none => .null
  | some text => .str text

def isoString (d : Datetime) : String := String.ofList d.isoformat

def buildIngestionCheckpoint (sha256 : List Char → String) (source : String) (config : JsonConfig)
    (forceFullSync : Bool) (since : Option Datetime) (cursor : String)
    (resumeToken : Option String) (now : Datetime) : List (String × Json) :=
  [("version", .int checkpointVersion),
   ("source", .str source),
   ("force_full_sync", .bool forceFullSync),
   ("since", orNull (since.map isoString)),
   ("cursor", .str cursor),
   ("resume_token", orNull resumeToken),
   ("config_fingerprint", .str (connectorConfigFingerprint sha256 source config)),
   ("updated_at", .str (isoString now))]

/-! ## Decoding -/

/-- `isinstance(value, str)`. -/
def asString : Option Json → Option String
  | some (.str text) => some text
  | _ => none

/-- `value is flag`: an integer is no flag. -/
def isFlag (flag : Bool) : Option Json → Bool
  | some (.bool value) => value = flag
  | _ => false

/-- `value == 1`, which `True` and `1.0` are too. -/
def isVersion : Option Json → Bool
  | some (.int n) => n = checkpointVersion
  | some (.bool value) => value
  | some (.float x) => x.text = ['1', '.', '0']
  | _ => false

/-- `datetime.fromisoformat(str(value))`. The text of a list or of an object starts
with a bracket, and no date does. -/
def strDatetime : Json → Option Datetime
  | .null => Datetime.fromisoformat ['N', 'o', 'n', 'e']
  | .bool true => Datetime.fromisoformat ['T', 'r', 'u', 'e']
  | .bool false => Datetime.fromisoformat ['F', 'a', 'l', 's', 'e']
  | .int n => Datetime.fromisoformat (toString n).toList
  | .float x => Datetime.fromisoformat x.text
  | .str text => Datetime.fromisoformat text.toList
  | .arr _ | .obj _ => none

def invalidIsoformat : Exn := .valueError "Invalid isoformat string"

def naiveAndAware : Exn := .typeError "can't subtract offset-naive and offset-aware datetimes"

def orRaise {α : Type} (value : Option α) (exc : Exn) : Except Exn α := value.elim (.error exc) .ok

def decodeSince (value : Option Json) : Except Exn (Option Datetime) :=
  match asString value with
  | none => .ok none
  | some text => (orRaise (Datetime.fromisoformat text.toList) invalidIsoformat).map some

/-- The body of the `try`. The age is in microseconds. -/
def decode (sha256 : List Char → String) (source : String) (config : JsonConfig)
    (forceFullSync : Bool) (now : Datetime) (ttlSeconds : Int) (raw : List (String × Json)) :
    Except Exn (Option (Option Datetime × String × Option String)) := do
  let value ← orRaise (raw.lookup "updated_at") (.keyError "updated_at")
  let updatedAt ← orRaise (strDatetime value) invalidIsoformat
  if updatedAt.utcoffset = none then return none
  let age ← orRaise (now.subtract updatedAt) naiveAndAware
  if age < -300000000 ∨ ttlSeconds * 1000000 < age then return none
  if isVersion (raw.lookup "version") = false then return none
  if asString (raw.lookup "source") ≠ some source ∨
      isFlag forceFullSync (raw.lookup "force_full_sync") = false then return none
  if asString (raw.lookup "config_fingerprint") ≠
      some (connectorConfigFingerprint sha256 source config) then return none
  match asString (raw.lookup "cursor") with
  | none => return none
  | some cursor =>
    if cursor = "" then return none
    let since ← decodeSince (raw.lookup "since")
    if since.any fun d => d.utcoffset = none then return none
    match raw.lookup "resume_token" with
    | none | some .null => return some (since, cursor, none)
    | some (.str resumeToken) => return some (since, cursor, some resumeToken)
    | some _ => return none

/-- `except (KeyError, TypeError, ValueError)`. -/
def caught : Exn → Bool
  | .keyError _ | .typeError _ | .valueError _ => true
  | _ => false

def loadIngestionCheckpoint (sha256 : List Char → String) (source : String) (config : JsonConfig)
    (forceFullSync : Bool) (now : Datetime) (ttlSeconds : Int) :
    Except Exn (Option (Option Datetime × String × Option String)) :=
  match config.lookup checkpointConfigKey with
  | some (.obj raw) =>
    match decode sha256 source config forceFullSync now ttlSeconds raw with
    | .ok result => .ok result
    | .error exc => if caught exc then .ok none else .error exc
  | _ => .ok none

/-! ## What the fingerprint tells apart -/

/-- The entries that are not the worker's have the same canonical texts. -/
def SameOperator (config config' : JsonConfig) : Prop :=
  ∀ key, isOperatorKey key = true →
    (config.lookup key).map Json.dumps = (config'.lookup key).map Json.dumps

theorem mem_operatorTexts {config : JsonConfig} {key : String} {text : List Char} :
    (key, text) ∈ Json.dumpsEntries (operatorConfig config) ↔
      isOperatorKey key = true ∧ (config.lookup key).map Json.dumps = some text := by
  rw [Json.dumpsEntries_eq_map, List.mem_map]
  constructor
  · rintro ⟨entry, hentry, heq⟩
    obtain ⟨hentries, hkey⟩ := List.mem_filter.mp hentry
    obtain ⟨stored, hstored, rfl⟩ := List.mem_map.mp hentries
    obtain ⟨rfl, rfl⟩ := Prod.mk.inj heq
    have hlookup : config.lookup stored.1 = some stored.2 := AList.mem_lookup_iff.mpr hstored
    refine ⟨hkey, ?_⟩
    rw [hlookup]
    rfl
  · rintro ⟨hkey, htext⟩
    obtain ⟨value, hvalue, rfl⟩ := Option.map_eq_some_iff.mp htext
    have hstored : (⟨key, value⟩ : Sigma fun _ : String => Json) ∈ config.entries :=
      AList.mem_lookup_iff.mp hvalue
    exact ⟨(key, value), List.mem_filter.mpr ⟨List.mem_map.mpr ⟨_, hstored, rfl⟩, hkey⟩, rfl⟩

theorem keys_operatorTexts (config : JsonConfig) :
    ((Json.dumpsEntries (operatorConfig config)).map Prod.fst).Nodup := by
  rw [Json.dumpsEntries_eq_map, List.map_map]
  have hkeys : (config.entries.map Sigma.fst).Nodup := config.nodupKeys
  have hsub : ((operatorConfig config).map Prod.fst).Sublist
      ((config.entries.map fun entry => (entry.1, entry.2)).map Prod.fst) :=
    List.filter_sublist.map Prod.fst
  rw [List.map_map] at hsub
  exact hkeys.sublist hsub

theorem operatorText_eq_iff {config config' : JsonConfig} :
    Json.dumps (.obj (operatorConfig config)) = Json.dumps (.obj (operatorConfig config')) ↔
      SameOperator config config' := by
  have hdumps : ∀ config : JsonConfig, Json.dumps (.obj (operatorConfig config)) =
      Json.objectText (Json.dumpsEntries (operatorConfig config)) := by
    intro config
    rw [Json.dumps]
  rw [hdumps, hdumps]
  constructor
  · intro h key hkey
    have hperm := Json.perm_of_objectText (Json.closed_dumpsEntries _) (Json.closed_dumpsEntries _) h
    apply Option.ext
    intro text
    have hmem : (key, text) ∈ Json.dumpsEntries (operatorConfig config) ↔
        (key, text) ∈ Json.dumpsEntries (operatorConfig config') := hperm.mem_iff
    rw [mem_operatorTexts, mem_operatorTexts] at hmem
    simpa [hkey] using hmem
  · intro h
    apply Json.objectText_of_perm (keys_operatorTexts config)
    have hnodup := (keys_operatorTexts config).of_map
    have hnodup' := (keys_operatorTexts config').of_map
    apply (List.perm_ext_iff_of_nodup hnodup hnodup').mpr
    rintro ⟨key, text⟩
    rw [mem_operatorTexts, mem_operatorTexts]
    constructor
    · rintro ⟨hkey, htext⟩
      exact ⟨hkey, (h key hkey).symm.trans htext⟩
    · rintro ⟨hkey, htext⟩
      exact ⟨hkey, (h key hkey).trans htext⟩

theorem fingerprintPayload_eq_iff {source source' : String} {config config' : JsonConfig} :
    fingerprintPayload source config = fingerprintPayload source' config' ↔
      source = source' ∧ SameOperator config config' := by
  have hdumps : ∀ (source : String) (config : JsonConfig), fingerprintPayload source config =
      Json.objectText [("source", Json.quote source),
        ("config", Json.dumps (.obj (operatorConfig config)))] := by
    intro source config
    unfold fingerprintPayload
    rw [Json.dumps, Json.dumpsEntries, Json.dumpsEntries, Json.dumpsEntries, Json.dumps]
  have hclosed : ∀ (source : String) (config : JsonConfig), ∀ entry ∈ [("source", Json.quote source),
      ("config", Json.dumps (.obj (operatorConfig config)))], Json.Closed entry.2 := by
    intro source config entry hentry
    rcases List.mem_cons.mp hentry with rfl | hentry
    · exact Json.closed_quote source
    · obtain rfl := List.mem_singleton.mp hentry
      exact Json.closed_dumps _
  constructor
  · intro h
    rw [hdumps, hdumps] at h
    have hperm := Json.perm_of_objectText (hclosed source config) (hclosed source' config') h
    have hsource := hperm.subset List.mem_cons_self
    have hconfig := hperm.subset (List.mem_cons_of_mem _ List.mem_cons_self)
    simp only [List.mem_cons, List.not_mem_nil, or_false, Prod.mk.injEq] at hsource hconfig
    simp at hsource hconfig
    exact ⟨Json.quote_inj hsource, operatorText_eq_iff.mp hconfig⟩
  · rintro ⟨rfl, hsame⟩
    rw [hdumps, hdumps, operatorText_eq_iff.mpr hsame]

/-! ## Whatever is stored -/

abbrev Triple := Option Datetime × String × Option String

/-- What may be resumed from: a cursor, and an aware start or none. -/
def Resumable (triple : Triple) : Prop :=
  triple.2.1 ≠ "" ∧ ∀ d ∈ triple.1, d.utcoffset ≠ none

/-- Returns what may be resumed from, or raises what is caught. -/
def Safe : Except Exn (Option Triple) → Prop
  | .ok result => ∀ triple ∈ result, Resumable triple
  | .error exc => caught exc = true

theorem safe_none : Safe (.ok none) := by
  intro triple htriple
  cases htriple

theorem safe_orRaise {α : Type} {value : Option α} {exc : Exn}
    {f : α → Except Exn (Option Triple)} (hexc : caught exc = true) (hf : ∀ a, Safe (f a)) :
    Safe (orRaise value exc >>= f) := by
  cases value with
  | none => exact hexc
  | some a => exact hf a

theorem safe_decodeSince {value : Option Json} {f : Option Datetime → Except Exn (Option Triple)}
    (hf : ∀ since, Safe (f since)) : Safe (decodeSince value >>= f) := by
  unfold decodeSince
  split
  · exact hf none
  · rename_i text _
    cases Datetime.fromisoformat text.toList with
    | none => exact rfl
    | some d => exact hf (some d)

theorem decode_safe (sha256 : List Char → String) (source : String) (config : JsonConfig)
    (forceFullSync : Bool) (now : Datetime) (ttlSeconds : Int) (raw : List (String × Json)) :
    Safe (decode sha256 source config forceFullSync now ttlSeconds raw) := by
  unfold decode
  apply safe_orRaise rfl
  intro value
  apply safe_orRaise rfl
  intro updatedAt
  split
  · exact safe_none
  apply safe_orRaise rfl
  intro age
  split
  · exact safe_none
  split
  · exact safe_none
  split
  · exact safe_none
  split
  · exact safe_none
  split
  · exact safe_none
  rename_i cursor _
  split
  · exact safe_none
  rename_i hcursor
  apply safe_decodeSince
  intro since
  split
  · exact safe_none
  rename_i hsince
  have haware : ∀ d ∈ since, d.utcoffset ≠ none := by
    intro d hd hnaive
    apply hsince
    rw [hd, Option.any_some, hnaive]
    rfl
  have hresumable : ∀ resumeToken, Safe (.ok (some (since, cursor, resumeToken))) := by
    intro resumeToken triple htriple
    obtain rfl := Option.some.inj htriple
    exact ⟨hcursor, haware⟩
  split
  · exact hresumable none
  · exact hresumable none
  · exact hresumable (some _)
  · exact safe_none

/-- Nothing that the column holds makes the decoding raise. -/
theorem loadIngestionCheckpoint_safe (sha256 : List Char → String) (source : String)
    (config : JsonConfig) (forceFullSync : Bool) (now : Datetime) (ttlSeconds : Int) :
    ∃ result, loadIngestionCheckpoint sha256 source config forceFullSync now ttlSeconds = .ok result ∧
      ∀ triple ∈ result, Resumable triple := by
  have hnone : ∀ triple ∈ (none : Option Triple), Resumable triple := safe_none
  unfold loadIngestionCheckpoint
  split
  · rename_i raw _
    have hsafe := decode_safe sha256 source config forceFullSync now ttlSeconds raw
    cases hdecode : decode sha256 source config forceFullSync now ttlSeconds raw with
    | ok result =>
      rw [hdecode] at hsafe
      exact ⟨result, rfl, hsafe⟩
    | error exc =>
      rw [hdecode] at hsafe
      exact ⟨none, if_pos hsafe, hnone⟩
  · exact ⟨none, rfl, hnone⟩

/-! ## What was built is found again -/

section Stored

variable {sha256 : List Char → String} {source source' : String} {config config' : JsonConfig}
variable {forceFullSync forceFullSync' : Bool} {since : Option Datetime} {cursor : String}
variable {resumeToken : Option String} {built now : Datetime} {ttlSeconds : Int}

/-- The age is from five minutes ahead of the clock up to the limit. -/
def Fresh (built now : Datetime) (ttlSeconds : Int) : Prop :=
  ∃ age, now.subtract built = some age ∧ -300000000 ≤ age ∧ age ≤ ttlSeconds * 1000000

theorem strDatetime_isoString (d : Datetime) : strDatetime (.str (isoString d)) = some d := by
  show Datetime.fromisoformat (String.ofList d.isoformat).toList = some d
  rw [String.toList_ofList]
  exact Datetime.fromisoformat_isoformat d

theorem decodeSince_orNull (since : Option Datetime) :
    decodeSince (some (orNull (since.map isoString))) = .ok since := by
  cases since with
  | none => rfl
  | some d =>
    unfold decodeSince orNull isoString
    simp only [Option.map_some, asString, String.toList_ofList, Datetime.fromisoformat_isoformat]
    rfl

theorem built_lookup (sha256 : List Char → String) (source : String) (config : JsonConfig)
    (forceFullSync : Bool) (since : Option Datetime) (cursor : String) (resumeToken : Option String)
    (built : Datetime) :
    let raw := buildIngestionCheckpoint sha256 source config forceFullSync since cursor resumeToken
      built
    (raw.lookup "updated_at" = some (.str (isoString built)) ∧
      raw.lookup "version" = some (.int checkpointVersion)) ∧
    (raw.lookup "source" = some (.str source) ∧
      raw.lookup "force_full_sync" = some (.bool forceFullSync) ∧
      raw.lookup "config_fingerprint" =
        some (.str (connectorConfigFingerprint sha256 source config))) ∧
    raw.lookup "cursor" = some (.str cursor) ∧
      raw.lookup "since" = some (orNull (since.map isoString)) ∧
      raw.lookup "resume_token" = some (orNull resumeToken) := by
  simp [buildIngestionCheckpoint, List.lookup_cons]

/-- What is left to check of an envelope that was built. -/
theorem decode_built (hsince : ∀ d ∈ since, d.utcoffset ≠ none) (hcursor : cursor ≠ "")
    (hbuilt : built.utcoffset ≠ none) :
    decode sha256 source' config' forceFullSync' now ttlSeconds
        (buildIngestionCheckpoint sha256 source config forceFullSync since cursor resumeToken built) =
      (orRaise (now.subtract built) naiveAndAware >>= fun age =>
        if age < -300000000 ∨ ttlSeconds * 1000000 < age then .ok none
        else if source ≠ source' ∨ forceFullSync ≠ forceFullSync' then .ok none
        else if connectorConfigFingerprint sha256 source config ≠
            connectorConfigFingerprint sha256 source' config' then .ok none
        else .ok (some (since, cursor, resumeToken))) := by
  have haware : (since.any fun d => d.utcoffset = none) = false := by
    cases since with
    | none => rfl
    | some d => exact decide_eq_false (hsince d rfl)
  obtain ⟨⟨hupdatedAt, hversion⟩, ⟨hsource, hforce, hfingerprint⟩, hcursorValue, hsinceValue, htoken⟩ :=
    built_lookup sha256 source config forceFullSync since cursor resumeToken built
  unfold decode
  rw [hupdatedAt, hversion, hsource, hforce, hfingerprint, hcursorValue, hsinceValue, htoken,
    decodeSince_orNull]
  simp only [orRaise, Option.elim, bind, Except.bind, strDatetime_isoString, if_neg hbuilt]
  cases now.subtract built with
  | none => rfl
  | some age =>
    have hcurrent : ¬ isVersion (some (.int checkpointVersion)) = false := by decide
    simp only [if_neg hcurrent, asString, isFlag, if_neg hcursor, haware, ne_eq,
      Option.some.injEq, decide_eq_false_iff_not, Bool.false_eq_true, if_false]
    cases resumeToken with
    | none => rfl
    | some token => rfl

/-- A stored envelope loads exactly where it was built for the same sync, and is fresh. -/
theorem loadIngestionCheckpoint_built (hsha : Function.Injective sha256)
    (hsince : ∀ d ∈ since, d.utcoffset ≠ none) (hcursor : cursor ≠ "")
    (hbuilt : built.utcoffset ≠ none)
    (hstored : config'.lookup checkpointConfigKey = some (.obj
      (buildIngestionCheckpoint sha256 source config forceFullSync since cursor resumeToken built))) :
    (source = source' ∧ forceFullSync = forceFullSync' ∧ SameOperator config config' ∧
        Fresh built now ttlSeconds →
      loadIngestionCheckpoint sha256 source' config' forceFullSync' now ttlSeconds =
        .ok (some (since, cursor, resumeToken))) ∧
    (¬ (source = source' ∧ forceFullSync = forceFullSync' ∧ SameOperator config config' ∧
        Fresh built now ttlSeconds) →
      loadIngestionCheckpoint sha256 source' config' forceFullSync' now ttlSeconds = .ok none) := by
  have hfingerprint : connectorConfigFingerprint sha256 source config =
      connectorConfigFingerprint sha256 source' config' ↔
        source = source' ∧ SameOperator config config' := by
    unfold connectorConfigFingerprint
    rw [hsha.eq_iff]
    exact fingerprintPayload_eq_iff
  unfold loadIngestionCheckpoint
  rw [hstored]
  simp only [decode_built hsince hcursor hbuilt]
  constructor
  · rintro ⟨hsource, hforce, hsame, age, hage, hlow, hhigh⟩
    have hfresh : ¬ (age < -300000000 ∨ ttlSeconds * 1000000 < age) := by omega
    have hsync : ¬ (source ≠ source' ∨ forceFullSync ≠ forceFullSync') := by
      simp [hsource, hforce]
    have hconfig := hfingerprint.mpr ⟨hsource, hsame⟩
    rw [hage]
    simp only [orRaise, Option.elim, bind, Except.bind, if_neg hfresh, if_neg hsync, ne_eq, hconfig,
      not_true_eq_false, if_false]
  · intro hnot
    cases hage : now.subtract built with
    | none => rfl
    | some age =>
      simp only [orRaise, Option.elim, bind, Except.bind]
      by_cases hstale : age < -300000000 ∨ ttlSeconds * 1000000 < age
      · rw [if_pos hstale]
      by_cases hsync : source ≠ source' ∨ forceFullSync ≠ forceFullSync'
      · rw [if_neg hstale, if_pos hsync]
      by_cases hconfig : connectorConfigFingerprint sha256 source config ≠
          connectorConfigFingerprint sha256 source' config'
      · rw [if_neg hstale, if_neg hsync, if_pos hconfig]
      · -- every check passes, so the envelope was built for this sync
        obtain ⟨hsource, hsame⟩ := hfingerprint.mp (not_not.mp hconfig)
        simp only [not_or, not_not] at hsync
        exact absurd ⟨hsource, hsync.2, hsame, age, hage, by omega, by omega⟩ hnot

theorem sameOperator_insert {key : String} {value : Json} (h : isOperatorKey key = false) :
    SameOperator config (config.insert key value) := by
  intro other hother
  have hne : other ≠ key := by
    rintro rfl
    rw [h] at hother
    cases hother
  rw [AList.lookup_insert_ne hne]

end Stored

/-- The envelope decodes to what it was built of, for the same sync and within its
time, and to nothing otherwise; whatever else is stored decodes to something to
resume from, or to nothing. -/
theorem checkpoint_exact {sha256 : List Char → String} (hsha : Function.Injective sha256) :
    (∀ source config forceFullSync since cursor resumeToken built,
      (∀ d ∈ since, d.utcoffset ≠ none) → cursor ≠ "" → built.utcoffset ≠ none →
      ∀ source' config' forceFullSync' now ttlSeconds,
      config'.lookup checkpointConfigKey = some (.obj
        (buildIngestionCheckpoint sha256 source config forceFullSync since cursor resumeToken built)) →
      (source = source' ∧ forceFullSync = forceFullSync' ∧ SameOperator config config' ∧
          Fresh built now ttlSeconds →
        loadIngestionCheckpoint sha256 source' config' forceFullSync' now ttlSeconds =
          .ok (some (since, cursor, resumeToken))) ∧
      (¬ (source = source' ∧ forceFullSync = forceFullSync' ∧ SameOperator config config' ∧
          Fresh built now ttlSeconds) →
        loadIngestionCheckpoint sha256 source' config' forceFullSync' now ttlSeconds = .ok none)) ∧
    ∀ source config forceFullSync now ttlSeconds, ∃ result,
      loadIngestionCheckpoint sha256 source config forceFullSync now ttlSeconds = .ok result ∧
        ∀ triple ∈ result, Resumable triple := by
  constructor
  · intro source config forceFullSync since cursor resumeToken built hsince hcursor hbuilt source' config'
      forceFullSync' now ttlSeconds hstored
    exact loadIngestionCheckpoint_built hsha hsince hcursor hbuilt hstored
  · intro source config forceFullSync now ttlSeconds
    exact loadIngestionCheckpoint_safe sha256 source config forceFullSync now ttlSeconds

/-- Noon in UTC, on the first of March. -/
def noon (second : Nat) (h : second < 60) : Datetime where
  year := 2024
  month := 3
  day := 1
  hour := 12
  minute := 0
  second := second
  microsecond := 0
  utcoffset := some 0
  date_valid := by decide
  time_valid := ⟨by decide, by decide, h, by decide⟩
  offset_valid := by decide

def githubConfig : JsonConfig := AList.insert "repo" (.str "ekip") ∅

theorem checkpoint_exact_github :
    loadIngestionCheckpoint String.ofList "github"
      (githubConfig.insert checkpointConfigKey (.obj (buildIngestionCheckpoint String.ofList "github"
        githubConfig false none "2" (some "sha") (noon 0 (by decide)))))
      false (noon 30 (by decide)) 86400 = .ok (some (none, "2", some "sha")) := by
  have hsha : Function.Injective String.ofList := fun _ _ => String.ofList_injective
  have hstored := AList.lookup_insert (b := (Json.obj (buildIngestionCheckpoint String.ofList "github"
    githubConfig false none "2" (some "sha") (noon 0 (by decide))))) (a := checkpointConfigKey) githubConfig
  refine ((checkpoint_exact hsha).1 "github" githubConfig false none "2" (some "sha")
    (noon 0 (by decide)) (by simp) (by decide) (by decide) "github" _ false (noon 30 (by decide)) 86400
    hstored).1 ⟨rfl, rfl, sameOperator_insert (by decide), 30000000, by decide, by decide, by decide⟩

end Ekip.Ingestion.CheckpointEnvelope
