import Ekip.Evaluation.DatasetLoader

/-!
# What is written and loaded again

The lines of a file are split at every line break of Unicode, of which a JSON string may hold
some, and the name of the metadata is what `pathlib` leaves of the name without two
suffixes. Both matter for what comes back.
-/
namespace Ekip.Evaluation.Datasets

open Ekip.Lib Ekip.Lib.JsonText

/-! ## Names -/

theorem rtakeWhile_dot {ending : Text} (h : '.' ∉ ending) (front : Text) :
    (front ++ '.' :: ending).rtakeWhile (fun c => c ≠ '.') = ending := by
  have hall : ∀ c ∈ ending.reverse, decide (c ≠ '.') = true := by
    intro c hc
    have hmem : c ∈ ending := List.mem_reverse.mp hc
    have hne : c ≠ '.' := by
      rintro rfl
      exact h hmem
    simpa using hne
  unfold List.rtakeWhile
  rw [List.reverse_append, List.reverse_cons, List.append_assoc,
    List.takeWhile_append_of_pos hall, List.singleton_append,
    List.takeWhile_cons_of_neg (by simp), List.append_nil, List.reverse_reverse]

theorem stem_dot {front ending : Text} (hfront : front ≠ []) (hending : ending ≠ [])
    (h : '.' ∉ ending) : stem (front ++ '.' :: ending) = front := by
  have hlength : 0 < front.length := List.length_pos_iff.mpr hfront
  unfold stem
  rw [rtakeWhile_dot h]
  dsimp only
  rw [if_pos ⟨hending, by simp; omega⟩]
  have hcount : (front ++ '.' :: ending).length - ending.length - 1 = front.length := by
    simp
    omega
  rw [hcount, List.take_left]

theorem stem_dataset {name : Text} (h : name ≠ []) : stem (name ++ datasetSuffix) = name :=
  stem_dot h (by decide) (by decide)

theorem stem_ne_nil {name : Text} (h : name ≠ []) : stem name ≠ [] := by
  unfold stem
  dsimp only
  split
  case isTrue hdot =>
    intro hnil
    have hlength := congrArg List.length hnil
    simp only [List.length_take, List.length_nil] at hlength
    omega
  case isFalse => exact h

/-- The name of the metadata, if the first suffix leaves a name. -/
theorem metadataPathFor_eq {datasetPath : Text} (h : datasetPath ≠ []) :
    metadataPathFor datasetPath =
      if stem datasetPath = ['.'] then .error (.invalidName ['.'])
      else .ok (stem (stem datasetPath) ++ metadataSuffix) := by
  have hne := stem_ne_nil h
  have hne' := stem_ne_nil hne
  have hbare : withSuffix datasetPath [] =
      if stem datasetPath = ['.'] then .error (.invalidName ['.']) else .ok (stem datasetPath) := by
    unfold withSuffix withName
    rw [if_neg hne, List.append_nil]
    by_cases hdot : stem datasetPath = ['.']
    · rw [if_pos (.inr hdot), if_pos hdot, hdot]
    · rw [if_neg (by simp [hne, hdot]), if_neg hdot]
  have hsuffixed : withSuffix (stem datasetPath) metadataSuffix =
      .ok (stem (stem datasetPath) ++ metadataSuffix) := by
    unfold withSuffix withName
    have hlong : ¬ (stem (stem datasetPath) ++ metadataSuffix = [] ∨
        stem (stem datasetPath) ++ metadataSuffix = ['.']) := by
      have hlength : metadataSuffix.length = 10 := by decide
      rintro (hnil | hdot)
      · have hcount := congrArg List.length hnil
        simp only [List.length_append, List.length_nil] at hcount
        omega
      · have hcount := congrArg List.length hdot
        simp only [List.length_append, List.length_cons, List.length_nil] at hcount
        omega
    rw [if_neg hne', if_neg hlong]
  unfold metadataPathFor
  rw [hbare]
  by_cases hdot : stem datasetPath = ['.']
  · rw [if_pos hdot, if_pos hdot]
    rfl
  · rw [if_neg hdot, if_neg hdot]
    exact hsuffixed

/-- The metadata of a dataset have its name, if that has no suffix of its own. -/
def Plain (name : Text) : Prop := name ≠ [] ∧ name ≠ ['.'] ∧ stem name = name

theorem append_dataset_ne_nil (name : Text) : name ++ datasetSuffix ≠ [] := by
  have hne : datasetSuffix ≠ [] := by decide
  simp [hne]

theorem metadataPathFor_plain {name : Text} :
    metadataPathFor (name ++ datasetSuffix) = .ok (name ++ metadataSuffix) ↔ Plain name := by
  rw [metadataPathFor_eq (append_dataset_ne_nil name)]
  by_cases hnil : name = []
  · rw [hnil]
    constructor
    · intro h
      exact absurd h (by decide)
    · intro h
      exact absurd rfl h.1
  · rw [stem_dataset hnil]
    by_cases hdot : name = ['.']
    · rw [if_pos hdot]
      constructor
      · intro h
        cases h
      · intro h
        exact absurd hdot h.2.1
    · rw [if_neg hdot]
      constructor
      · intro h
        exact ⟨hnil, hdot, List.append_cancel_right (Except.ok.inj h)⟩
      · intro h
        rw [h.2.2]

/-- Two datasets read one file of metadata. -/
def Shared (name other : Text) : Prop :=
  ∃ file, metadataPathFor (name ++ datasetSuffix) = .ok file ∧
    metadataPathFor (other ++ datasetSuffix) = .ok file

theorem shared_iff {name other : Text} (h : Plain name) :
    Shared name other ↔ stem (stem (other ++ datasetSuffix)) = name := by
  unfold Shared
  rw [metadataPathFor_plain.mpr h, metadataPathFor_eq (append_dataset_ne_nil other)]
  constructor
  · rintro ⟨file, hfile, hother⟩
    obtain rfl := Except.ok.inj hfile
    split at hother
    case isTrue => cases hother
    case isFalse => exact List.append_cancel_right (Except.ok.inj hother)
  · intro hother
    refine ⟨_, rfl, ?_⟩
    have hdot : stem (other ++ datasetSuffix) ≠ ['.'] := by
      intro hdot
      rw [hdot] at hother
      exact h.2.1 (hother.symm.trans (by decide))
    rw [if_neg hdot, hother]

/-! ## Lines -/

variable {Case : Type} {model : CaseModel Case} {lines : List Text} {cases : List Case}

/-- The lines that hold something. -/
def texts (lines : List Text) : List Text := lines.filter fun line => Text.strip line ≠ []

/-- The lines that are not blank are the texts of these cases, in this order, each with the
white space around it that JSON allows. -/
structure Written (model : CaseModel Case) (lines : List Text) (cases : List Case) : Prop where
  decoded : (texts lines).mapM (fun line => decode model (trim line)) = some cases
  some : cases ≠ []
  distinct : (cases.map model.id).Nodup

/-- No text is broken at a character that `str.splitlines` breaks lines at. -/
def Unbroken (lines : List Text) : Prop :=
  ∀ line ∈ texts lines, ∀ c ∈ trim line, Text.isLineBreak c = false

theorem unbroken_iff {lines : List Text} : Unbroken lines ↔
    ((texts lines).all fun line => (trim line).all fun c => !Text.isLineBreak c) = true := by
  unfold Unbroken
  simp

theorem strip_nil {line : Text} (h : Text.strip line = []) : ∀ c ∈ line, Text.isSpace c = true := by
  unfold Text.strip at h
  have hdrop := List.rdropWhile_eq_nil_iff.mp h
  intro c hc
  rw [← List.takeWhile_append_dropWhile (p := Text.isSpace) (l := line)] at hc
  rcases List.mem_append.mp hc with hc | hc
  · exact List.mem_takeWhile_imp hc
  · exact hdrop c hc

theorem pieces_lines (lines : List Text) : lines.flatMap pieces = (texts lines).flatMap pieces := by
  induction lines with
  | nil => rfl
  | cons line lines ih =>
    by_cases hblank : Text.strip line = []
    · have htexts : texts (line :: lines) = texts lines := by simp [texts, hblank]
      rw [htexts, List.flatMap_cons, pieces_of_blanks (strip_nil hblank), List.nil_append, ih]
    · have htexts : texts (line :: lines) = line :: texts lines := by simp [texts, hblank]
      rw [htexts, List.flatMap_cons, List.flatMap_cons, ih]

/-- A text that holds a case is the text of an object. -/
theorem decoded_object {line : Text} {case : Case} (h : decode model (trim line) = some case) :
    ∃ inner, trim line = '\x7b' :: (inner ++ ['\x7d']) ∧ Level inner := by
  obtain ⟨payload, hpayload, hcase⟩ := (decode_eq_some model).mp h
  exact trim_object hpayload (model.validate_object payload case hcase)

theorem mem_mapM {α β : Type} {f : α → Option β} {as : List α} {bs : List β}
    (h : as.mapM f = some bs) {a : α} (ha : a ∈ as) : ∃ b, f a = some b := by
  induction as generalizing bs with
  | nil => simp at ha
  | cons first as ih =>
    obtain ⟨b, rest, hb, hrest, rfl⟩ := mapM_cons_eq_some.mp h
    rcases List.mem_cons.mp ha with rfl | ha
    · exact ⟨b, hb⟩
    · exact ih hrest ha

/-- Texts without line breaks are read as they were written. -/
theorem pieces_unbroken {all : List Text} {cases : List Case}
    (h : all.mapM (fun line => decode model (trim line)) = some cases)
    (hunbroken : ∀ line ∈ all, ∀ c ∈ trim line, Text.isLineBreak c = false) :
    (all.flatMap pieces).mapM (decode model) = some cases := by
  induction all generalizing cases with
  | nil => exact h
  | cons line all ih =>
    obtain ⟨case, rest, hcase, hrest, rfl⟩ := mapM_cons_eq_some.mp h
    obtain ⟨inner, htrim, -⟩ := decoded_object hcase
    have hclean := hunbroken line List.mem_cons_self
    have hpieces : pieces line = [trim line] := by
      rw [pieces_trim, htrim]
      rw [htrim] at hclean
      exact pieces_of_clean hclean
    rw [List.flatMap_cons, hpieces]
    exact mapM_cons_eq_some.mpr ⟨case, rest, hcase,
      ih hrest fun other hother => hunbroken other (List.mem_cons_of_mem _ hother), rfl⟩

theorem pieces_broken {all : List Text} {cases found : List Case}
    (h : all.mapM (fun line => decode model (trim line)) = some cases)
    (hfound : (all.flatMap pieces).mapM (decode model) = some found) :
    ∀ line ∈ all, ∀ c ∈ trim line, Text.isLineBreak c = false := by
  intro line hline
  by_contra hbreak
  obtain ⟨case, hcase⟩ := mem_mapM h hline
  obtain ⟨inner, htrim, hinner⟩ := decoded_object hcase
  rw [htrim] at hbreak
  obtain ⟨first, rest, hpieces, hnone⟩ := pieces_of_break hinner hbreak
  have hmem : first ∈ all.flatMap pieces := by
    refine List.mem_flatMap.mpr ⟨line, hline, ?_⟩
    rw [pieces_trim, htrim, hpieces]
    exact List.mem_cons_self
  obtain ⟨found', hfound'⟩ := mem_mapM hfound hmem
  obtain ⟨payload, hpayload, -⟩ := (decode_eq_some model).mp hfound'
  rw [hnone] at hpayload
  cases hpayload

/-- The cases of the file are loaded exactly when no text of them is broken. -/
theorem loadCases_written (h : Written model lines cases) (datasetPath : Text) :
    loadCases model datasetPath (universalNewlines (unlines lines)) = .ok cases ↔
      Unbroken lines := by
  have hpieces : records (splitlines (universalNewlines (unlines lines))) =
      (texts lines).flatMap pieces := by
    rw [records_splitlines, ← pieces_lines, ← pieces_unlines]
    exact pieces_universalNewlines [] (unlines lines)
  rw [loadCases_iff, hpieces]
  constructor
  · rintro ⟨hfound, -⟩
    exact pieces_broken h.decoded hfound
  · intro hunbroken
    exact ⟨pieces_unbroken h.decoded hunbroken, h.some, h.distinct⟩

/-! ## Round trips -/

def decodeMetadata (text : Text) : Option DatasetMetadata :=
  (loads text).bind DatasetMetadata.validate

/-- Whatever else the directory holds, loading gives back what was written. -/
def ReadBack (model : CaseModel Case) (name : Text) (lines : List Text) (cases : List Case) :
    Prop :=
  ∀ (directory : Directory) (metadata : DatasetMetadata),
    directory (name ++ datasetSuffix) = some (unlines lines) →
    (readText directory (name ++ metadataSuffix)).bind decodeMetadata = some metadata →
    loadDataset model directory (name ++ datasetSuffix) = .ok { metadata, cases }

theorem loadMetadata_of_path {directory : Directory} {datasetPath metadataPath : Text}
    {metadata : DatasetMetadata} (hpath : metadataPathFor datasetPath = .ok metadataPath)
    (h : (readText directory metadataPath).bind decodeMetadata = some metadata) :
    loadMetadata directory datasetPath = .ok metadata := by
  obtain ⟨text, htext, hdecode⟩ := Option.bind_eq_some_iff.mp h
  obtain ⟨raw, hraw, hmetadata⟩ := Option.bind_eq_some_iff.mp hdecode
  unfold loadMetadata
  rw [hpath]
  dsimp only [bind, Except.bind]
  rw [htext]
  dsimp only
  rw [hraw]
  dsimp only
  rw [hmetadata]
  rfl

theorem loadDataset_ok {directory : Directory} {datasetPath text : Text} {dataset : Dataset Case}
    (htext : directory datasetPath = some text) :
    loadDataset model directory datasetPath = .ok dataset ↔
      loadMetadata directory datasetPath = .ok dataset.metadata ∧
        loadCases model datasetPath (universalNewlines text) = .ok dataset.cases := by
  have hread : readText directory datasetPath = some (universalNewlines text) := by
    unfold readText
    rw [htext]
    rfl
  unfold loadDataset
  rw [hread]
  constructor
  · intro h
    obtain ⟨metadata, hmetadata, h⟩ := Query.bind_ok.mp h
    obtain ⟨cases, hcases, h⟩ := Query.bind_ok.mp h
    obtain rfl := Except.ok.inj h
    exact ⟨hmetadata, hcases⟩
  · rintro ⟨hmetadata, hcases⟩
    exact Query.bind_ok.mpr ⟨_, hmetadata, Query.bind_ok.mpr ⟨_, hcases, rfl⟩⟩

def exampleMetadataText : Text := "\x7b\"dataset_name\":\"m\"\x7d".toList

def exampleMetadata : DatasetMetadata :=
  { datasetName := "m".toList, version := "1.0".toList, description := [] }

/-- A directory with a dataset and its metadata, and nothing else. -/
def exampleDirectory (name text : Text) : Directory := fun file =>
  if file = name ++ datasetSuffix then some text
  else if file = name ++ metadataSuffix then some exampleMetadataText
  else none

theorem metadataSuffix_ne_datasetSuffix (a b : Text) : a ++ metadataSuffix ≠ b ++ datasetSuffix := by
  have hmetadata : metadataSuffix.getLast? = some 'n' := by decide
  have hdataset : datasetSuffix.getLast? = some 'l' := by decide
  intro h
  have hlast := congrArg List.getLast? h
  rw [List.getLast?_append, List.getLast?_append, hmetadata, hdataset] at hlast
  exact absurd hlast (by simp)

theorem decodeMetadata_example :
    decodeMetadata (universalNewlines exampleMetadataText) = some exampleMetadata := by
  decide +kernel

theorem exampleDirectory_metadata (name text : Text) :
    (readText (exampleDirectory name text) (name ++ metadataSuffix)).bind decodeMetadata =
      some exampleMetadata := by
  have hfile : exampleDirectory name text (name ++ metadataSuffix) = some exampleMetadataText := by
    unfold exampleDirectory
    rw [if_neg (metadataSuffix_ne_datasetSuffix name name), if_pos rfl]
  unfold readText
  rw [hfile, Option.map_some, Option.bind_some]
  exact decodeMetadata_example

/-- Where the metadata have another name, a directory that lacks that file has other metadata. -/
theorem loadMetadata_elsewhere {name text : Text} (h : ¬ Plain name) :
    loadMetadata (exampleDirectory name text) (name ++ datasetSuffix) ≠ .ok exampleMetadata := by
  intro hload
  obtain ⟨file, hfile, hload⟩ := Query.bind_ok.mp hload
  have hother : file ≠ name ++ metadataSuffix := by
    rintro rfl
    exact h (metadataPathFor_plain.mp hfile)
  have hsuffix : ∃ front, file = front ++ metadataSuffix := by
    rw [metadataPathFor_eq (append_dataset_ne_nil name)] at hfile
    split at hfile
    case isTrue => cases hfile
    case isFalse => exact ⟨_, (Except.ok.inj hfile).symm⟩
  obtain ⟨front, rfl⟩ := hsuffix
  have hnone : readText (exampleDirectory name text) (front ++ metadataSuffix) = none := by
    unfold readText exampleDirectory
    rw [if_neg (metadataSuffix_ne_datasetSuffix front name), if_neg hother]
    rfl
  rw [hnone] at hload
  have hdescription : "(no .meta.json found)".toList = [] :=
    congrArg DatasetMetadata.description (Except.ok.inj hload)
  exact absurd hdescription (by decide)

theorem readBack_iff (h : Written model lines cases) (name : Text) :
    ReadBack model name lines cases ↔ Plain name ∧ Unbroken lines := by
  constructor
  · intro hback
    have hdataset : exampleDirectory name (unlines lines) (name ++ datasetSuffix) =
        some (unlines lines) := if_pos rfl
    obtain ⟨hmetadata, hcases⟩ := (loadDataset_ok hdataset).mp
      (hback _ exampleMetadata hdataset (exampleDirectory_metadata name _))
    refine ⟨?_, (loadCases_written h _).mp hcases⟩
    by_contra hplain
    exact loadMetadata_elsewhere hplain hmetadata
  · rintro ⟨hplain, hunbroken⟩ directory metadata hdataset hmetadata
    refine (loadDataset_ok hdataset).mpr ⟨?_, (loadCases_written h _).mpr hunbroken⟩
    exact loadMetadata_of_path (metadataPathFor_plain.mpr hplain) hmetadata

/-- Loading undoes writing, and no other dataset reads the metadata, exactly when the name
has no suffix of its own, no text is broken by a line break, and the other name does not
come down to this one. -/
theorem load_undoes_write (model : CaseModel Case) {lines : List Text} {cases : List Case}
    (h : Written model lines cases) (name other : Text) :
    (ReadBack model name lines cases ∧ (name ≠ other → ¬ Shared name other)) ↔
      Plain name ∧ Unbroken lines ∧
        (name ≠ other → stem (stem (other ++ datasetSuffix)) ≠ name) := by
  rw [readBack_iff h]
  constructor
  · rintro ⟨⟨hplain, hunbroken⟩, hshared⟩
    refine ⟨hplain, hunbroken, fun hne hother => ?_⟩
    exact hshared hne ((shared_iff hplain).mpr hother)
  · rintro ⟨hplain, hunbroken, hshared⟩
    refine ⟨⟨hplain, hunbroken⟩, fun hne => ?_⟩
    rw [shared_iff hplain]
    exact hshared hne

/-- The fields that a case must have. -/
structure CaseHead where
  id : Text
  category : Text
  query : Text
deriving DecidableEq

def categories : List String :=
  ["retrieval", "grounding", "answer", "investigation", "memory", "graph", "proactive"]

def CaseHead.validate : Value → Option CaseHead
  | .object entries => do
    let id ← (member "id" entries).bind asText
    let category ← (member "category" entries).bind asText
    let query ← (member "query" entries).bind asText
    if (categories.map String.toList).contains category then some { id, category, query } else none
  | _ => none

def caseHeads : CaseModel CaseHead where
  validate := CaseHead.validate
  id := CaseHead.id
  validate_object payload case h := by
    unfold CaseHead.validate at h
    split at h
    · rfl
    · cases h

/-- The line of a case with this question. -/
def caseLine (query : Text) : Text :=
  "\x7b\"id\":\"c\",\"category\":\"answer\",\"query\":\"".toList ++ query ++ "\"\x7d".toList

def caseHead (query : Text) : CaseHead :=
  { id := ['c'], category := "answer".toList, query }

theorem written_line : Written caseHeads [caseLine ['q'], []] [caseHead ['q']] where
  decoded := by decide +kernel
  some := by simp
  distinct := by simp

/-- Two cases, with an empty line between them. -/
def twoLines : List Text :=
  [caseLine ['q'], [], "\x7b\"id\":\"d\",\"category\":\"memory\",\"query\":\"r\"\x7d".toList]

def twoCases : List CaseHead :=
  [caseHead ['q'], { id := ['d'], category := "memory".toList, query := ['r'] }]

theorem written_twoLines : Written caseHeads twoLines twoCases where
  decoded := by decide +kernel
  some := by simp [twoCases]
  distinct := by decide

theorem load_undoes_write_line :
    Written caseHeads twoLines twoCases ∧ ReadBack caseHeads ['a'] twoLines twoCases ∧
      (['a'] ≠ ['b'] → ¬ Shared ['a'] ['b']) :=
  ⟨written_twoLines, (load_undoes_write caseHeads written_twoLines ['a'] ['b']).mpr
    ⟨⟨by decide, by decide, by decide⟩, unbroken_iff.mpr (by decide +kernel), fun _ => by decide⟩⟩

/-- A separator of lines within a string. -/
theorem written_separator :
    Written caseHeads [caseLine ['\u2028']] [caseHead ['\u2028']] where
  decoded := by decide +kernel
  some := by simp
  distinct := by simp

/-- A dot in the name, or a separator in a string, and what was written does not come back;
two names with dots share their metadata. -/
theorem dotted_name_not_read_back :
    loadDataset caseHeads (exampleDirectory "a.x".toList (caseLine ['q'])) "a.x.jsonl".toList =
        .ok { metadata := defaultMetadata "a.x.jsonl".toList, cases := [caseHead ['q']] } ∧
      ¬ ReadBack caseHeads "a.x".toList [caseLine ['q'], []] [caseHead ['q']] ∧
      ¬ ReadBack caseHeads ['a'] [caseLine ['\u2028']] [caseHead ['\u2028']] ∧
      Shared "a.x".toList "a.y".toList := by
  refine ⟨by decide +kernel, ?_, ?_, "a.meta.json".toList, by decide +kernel, by decide +kernel⟩
  · intro h
    obtain ⟨⟨-, -, hstem⟩, -⟩ := (readBack_iff written_line _).mp h
    exact absurd hstem (by decide)
  · intro h
    obtain ⟨-, hunbroken⟩ := (readBack_iff written_separator _).mp h
    exact absurd (unbroken_iff.mp hunbroken) (by decide +kernel)

end Ekip.Evaluation.Datasets
