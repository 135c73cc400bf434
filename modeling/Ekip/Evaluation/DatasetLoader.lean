import Ekip.Lib.JsonText
import Ekip.Lib.Gaps
import Ekip.Lib.Query

/-!
# `evaluation/datasets/loader.py`

A directory is seen as the texts that `read_text` decodes before it translates their line
ends. What a case is checked for is the business of its pydantic model, which is given; the
metadata are three strings.
-/
namespace Ekip.Evaluation.Datasets

open Ekip.Lib Ekip.Lib.JsonText

inductive LoadError
  | fileNotFound (file : Text)
  | invalidName (name : Text)
  | invalidJson (file : Text) (line : Option Nat)
  | invalid (file : Text) (line : Option Nat)
  | duplicateId (file : Text) (line : Nat) (id : Text)
  | noCases (file : Text)
deriving DecidableEq

/-! ## Names: `pathlib` -/

/-- The name before its last dot, unless that is its first or last character. -/
def stem (name : Text) : Text :=
  let ending := name.rtakeWhile fun c => c ≠ '.'
  if ending ≠ [] ∧ ending.length + 1 < name.length then name.take (name.length - ending.length - 1)
  else name

def withName (name : Text) : Except LoadError Text :=
  if name = [] ∨ name = ['.'] then .error (.invalidName name) else .ok name

def withSuffix (name suffix : Text) : Except LoadError Text :=
  if stem name = [] then .error (.invalidName name) else withName (stem name ++ suffix)

def datasetSuffix : Text := ".jsonl".toList

def metadataSuffix : Text := ".meta.json".toList

def metadataPathFor (datasetPath : Text) : Except LoadError Text := do
  let bare ← withSuffix datasetPath []
  withSuffix bare metadataSuffix

/-! ## Texts -/

/-- The translation that reading in text mode does. -/
def universalNewlines : Text → Text
  | '\r' :: '\n' :: rest => '\n' :: universalNewlines rest
  | '\r' :: rest => '\n' :: universalNewlines rest
  | c :: rest => c :: universalNewlines rest
  | [] => []

/-- `str.splitlines`, of a text without carriage returns. -/
def splitlines (text : Text) : List Text :=
  if (Text.splitLines text).getLast? = some [] then (Text.splitLines text).dropLast
  else Text.splitLines text

abbrev Directory := Text → Option Text

def readText (directory : Directory) (file : Text) : Option Text :=
  (directory file).map universalNewlines

/-! ## Contracts -/

structure DatasetMetadata where
  datasetName : Text
  version : Text
  description : Text
deriving DecidableEq

/-- A string without lone surrogates. -/
def asText : Value → Option Text
  | .string content => content.mapM fun n => if n.isValidChar then some (Char.ofNat n) else none
  | _ => none

/-- Of a key that is repeated, the last value counts. -/
def member (key : String) (entries : List (List Nat × Value)) : Option Value :=
  entries.reverse.lookup (key.toList.map Char.toNat)

def textOr (default : Text) : Option Value → Option Text
  | none => some default
  | some value => asText value

def DatasetMetadata.validate : Value → Option DatasetMetadata
  | .object entries => do
    let datasetName ← (member "dataset_name" entries).bind asText
    let version ← textOr "1.0".toList (member "version" entries)
    let description ← textOr [] (member "description" entries)
    pure { datasetName, version, description }
  | _ => none

/-- `EvaluationCase.model_validate`, which accepts nothing but objects, and the ids of the
cases. -/
structure CaseModel (Case : Type) where
  validate : Value → Option Case
  id : Case → Text
  validate_object : ∀ payload case, validate payload = some case → isObject payload = true

structure Dataset (Case : Type) where
  metadata : DatasetMetadata
  cases : List Case
deriving DecidableEq

/-! ## Loading -/

def defaultMetadata (datasetPath : Text) : DatasetMetadata :=
  { datasetName := stem datasetPath
    version := "1.0".toList
    description := "(no .meta.json found)".toList }

def loadMetadata (directory : Directory) (datasetPath : Text) : Except LoadError DatasetMetadata := do
  let metadataPath ← metadataPathFor datasetPath
  match readText directory metadataPath with
  | none => pure (defaultMetadata datasetPath)
  | some text =>
    match loads text with
    | none => .error (.invalidJson metadataPath none)
    | some raw =>
      match DatasetMetadata.validate raw with
      | none => .error (.invalid metadataPath none)
      | some metadata => pure metadata

variable {Case : Type} (model : CaseModel Case)

/-- The loop over the numbered lines. -/
def loadLines (datasetPath : Text) :
    Nat → List Text → List Text → List Case → Except LoadError (List Case)
  | _, [], _, cases => .ok cases
  | lineNumber, rawLine :: rest, seenIds, cases =>
    let line := Text.strip rawLine
    if line = [] then loadLines datasetPath (lineNumber + 1) rest seenIds cases
    else
      match loads line with
      | none => .error (.invalidJson datasetPath (some lineNumber))
      | some payload =>
        match model.validate payload with
        | none => .error (.invalid datasetPath (some lineNumber))
        | some case =>
          if model.id case ∈ seenIds then
            .error (.duplicateId datasetPath lineNumber (model.id case))
          else loadLines datasetPath (lineNumber + 1) rest (model.id case :: seenIds)
            (cases ++ [case])

def loadCases (datasetPath text : Text) : Except LoadError (List Case) := do
  let cases ← loadLines model datasetPath 1 (splitlines text) [] []
  if cases.isEmpty then .error (.noCases datasetPath) else pure cases

def loadDataset (directory : Directory) (datasetPath : Text) : Except LoadError (Dataset Case) :=
  match readText directory datasetPath with
  | none => .error (.fileNotFound datasetPath)
  | some text => do
    let metadata ← loadMetadata directory datasetPath
    let cases ← loadCases model datasetPath text
    pure { metadata, cases }

/-- What a line holds. -/
def decode (line : Text) : Option Case := (loads line).bind model.validate

/-! ## Lines -/

/-- The lines that are not blank, without the white space around them. -/
def records (lines : List Text) : List Text := (lines.map Text.strip).filter fun line => line ≠ []

theorem records_append (a b : List Text) : records (a ++ b) = records a ++ records b := by
  unfold records
  rw [List.map_append, List.filter_append]

theorem records_cons (line : Text) (lines : List Text) : records (line :: lines) =
    if Text.strip line = [] then records lines else Text.strip line :: records lines := by
  unfold records
  rw [List.map_cons]
  by_cases h : Text.strip line = []
  · rw [if_pos h]
    simp [h]
  · rw [if_neg h]
    simp [h]

theorem mapM_cons_eq_some {α β : Type} {f : α → Option β} {a : α} {as : List α} {more : List β} :
    (a :: as).mapM f = some more ↔
      ∃ b rest, f a = some b ∧ as.mapM f = some rest ∧ more = b :: rest := by
  rw [List.mapM_cons]
  constructor
  · intro h
    obtain ⟨b, hb, h⟩ := Option.bind_eq_some_iff.mp h
    obtain ⟨rest, hrest, hpure⟩ := Option.bind_eq_some_iff.mp h
    exact ⟨b, rest, hb, hrest, (Option.some.inj hpure).symm⟩
  · rintro ⟨b, rest, hb, hrest, rfl⟩
    rw [hb, hrest]
    rfl

theorem decode_eq_some {line : Text} {case : Case} :
    decode model line = some case ↔
      ∃ payload, loads line = some payload ∧ model.validate payload = some case :=
  Option.bind_eq_some_iff

/-- What is loaded are the cases that the lines hold, if their ids are new and distinct. -/
theorem loadLines_iff {datasetPath : Text} {number : Nat} {lines seen : List Text}
    {cases found : List Case} :
    loadLines model datasetPath number lines seen cases = .ok found ↔
      ∃ more, (records lines).mapM (decode model) = some more ∧ found = cases ++ more ∧
        (more.map model.id).Nodup ∧ ∀ case ∈ more, model.id case ∉ seen := by
  induction lines generalizing number seen cases with
  | nil =>
    constructor
    · intro h
      cases h
      exact ⟨[], rfl, by simp, by simp, by simp⟩
    · rintro ⟨more, hmore, rfl, -⟩
      cases hmore
      simp [loadLines]
  | cons line lines ih =>
    rw [records_cons]
    unfold loadLines
    by_cases hblank : Text.strip line = []
    · simp only [if_pos hblank]
      exact ih
    · simp only [if_neg hblank]
      constructor
      · intro h
        split at h
        case h_1 => cases h
        case h_2 payload hpayload =>
          split at h
          case h_1 => cases h
          case h_2 case hcase =>
            split at h
            case isTrue => cases h
            case isFalse hseen =>
              obtain ⟨rest, hrest, rfl, hnodup, hnew⟩ := ih.mp h
              refine ⟨case :: rest, mapM_cons_eq_some.mpr ⟨case, rest,
                (decode_eq_some model).mpr ⟨payload, hpayload, hcase⟩, hrest, rfl⟩,
                by simp, ?_, ?_⟩
              · refine List.nodup_cons.mpr ⟨?_, hnodup⟩
                intro hmem
                obtain ⟨other, hother, hid⟩ := List.mem_map.mp hmem
                exact hnew other hother (by rw [hid]; exact List.mem_cons_self)
              · intro other hother
                rcases List.mem_cons.mp hother with rfl | hother
                · exact hseen
                · exact fun hmem => hnew other hother (List.mem_cons_of_mem _ hmem)
      · rintro ⟨more, hmore, rfl, hnodup, hnew⟩
        obtain ⟨case, rest, hdecode, hrest, rfl⟩ := mapM_cons_eq_some.mp hmore
        obtain ⟨payload, hpayload, hcase⟩ := (decode_eq_some model).mp hdecode
        obtain ⟨hfresh, hnodup⟩ := List.nodup_cons.mp hnodup
        rw [hpayload]
        dsimp only
        rw [hcase]
        dsimp only
        rw [if_neg (hnew case List.mem_cons_self)]
        refine ih.mpr ⟨rest, hrest, by simp, hnodup, ?_⟩
        intro other hother hmem
        rcases List.mem_cons.mp hmem with heq | hmem
        · exact hfresh (List.mem_map.mpr ⟨other, hother, heq⟩)
        · exact hnew other (List.mem_cons_of_mem _ hother) hmem

theorem loadCases_iff {datasetPath text : Text} {found : List Case} :
    loadCases model datasetPath text = .ok found ↔
      (records (splitlines text)).mapM (decode model) = some found ∧ found ≠ [] ∧
        (found.map model.id).Nodup := by
  unfold loadCases
  constructor
  · intro h
    obtain ⟨cases, hcases, h⟩ := Query.bind_ok.mp h
    obtain ⟨more, hmore, rfl, hnodup, -⟩ := (loadLines_iff model).mp hcases
    split at h
    case isTrue => cases h
    case isFalse hempty =>
      obtain rfl := Except.ok.inj h
      exact ⟨hmore, by simpa using hempty, hnodup⟩
  · rintro ⟨hfound, hne, hnodup⟩
    refine Query.bind_ok.mpr ⟨found, ?_, ?_⟩
    · exact (loadLines_iff model).mpr ⟨found, hfound, by simp, hnodup, by simp⟩
    · rw [if_neg (by simpa using hne)]
      rfl

/-! ### What is read of a line -/

/-- The lines of a text that are not blank. -/
def pieces (text : Text) : List Text := records (Text.splitLines text)

theorem pieces_break {c : Char} (h : Text.isLineBreak c = true) (a b : Text) :
    pieces (a ++ c :: b) = pieces a ++ pieces b := by
  unfold pieces Text.splitLines
  rw [List.splitOnP_append_cons a b h, records_append]

theorem pieces_nil : pieces [] = [] := rfl

theorem pieces_clean {text : Text} (h : ∀ c ∈ text, Text.isLineBreak c = false) :
    pieces text = if Text.strip text = [] then [] else [Text.strip text] := by
  unfold pieces Text.splitLines
  rw [List.splitOnP_eq_singleton h, records_cons]
  rfl

/-- A text has no line break, or a first one. -/
theorem clean_or_break (text : Text) : (∀ c ∈ text, Text.isLineBreak c = false) ∨
    ∃ front c back, text = front ++ c :: back ∧ (∀ d ∈ front, Text.isLineBreak d = false) ∧
      Text.isLineBreak c = true := by
  rcases Gaps.blank_or_ink (fun c => !Text.isLineBreak c) text with
    hall | ⟨front, c, back, hsplit, hfront, hc⟩
  · exact .inl fun c hc => by simpa using hall c hc
  · exact .inr ⟨front, c, back, hsplit, fun d hd => by simpa using hfront d hd, by simpa using hc⟩

theorem strip_cons {c : Char} (h : Text.isSpace c = true) (text : Text) :
    Text.strip (c :: text) = Text.strip text := by
  unfold Text.strip
  rw [List.dropWhile_cons_of_pos h]

theorem strip_concat {c : Char} (h : Text.isSpace c = true) (text : Text) :
    Text.strip (text ++ [c]) = Text.strip text := by
  unfold Text.strip
  rw [List.dropWhile_append]
  split
  case isTrue hempty =>
    have hnil : text.dropWhile Text.isSpace = [] := by simpa using hempty
    rw [hnil, List.dropWhile_cons_of_pos h]
    rfl
  case isFalse => exact List.rdropWhile_concat_pos _ _ _ h

theorem pieces_cons {c : Char} (h : Text.isSpace c = true) (text : Text) :
    pieces (c :: text) = pieces text := by
  by_cases hc : Text.isLineBreak c = true
  · exact pieces_break hc [] text
  · have hc' : Text.isLineBreak c = false := by simpa using hc
    rcases clean_or_break text with hclean | ⟨front, d, back, rfl, hfront, hd⟩
    · rw [pieces_clean hclean, pieces_clean (List.forall_mem_cons.mpr ⟨hc', hclean⟩),
        strip_cons h]
    · rw [← List.cons_append, pieces_break hd, pieces_break hd, pieces_clean hfront,
        pieces_clean (List.forall_mem_cons.mpr ⟨hc', hfront⟩), strip_cons h]

theorem pieces_blanks {blanks : Text} (h : ∀ c ∈ blanks, Text.isSpace c = true) (text : Text) :
    pieces (blanks ++ text) = pieces text := by
  induction blanks with
  | nil => rfl
  | cons c blanks ih =>
    rw [List.cons_append, pieces_cons (h c List.mem_cons_self)]
    exact ih fun d hd => h d (List.mem_cons_of_mem _ hd)

theorem pieces_of_blanks {blanks : Text} (h : ∀ c ∈ blanks, Text.isSpace c = true) :
    pieces blanks = [] := by
  have hpieces := pieces_blanks h []
  rwa [List.append_nil] at hpieces

theorem pieces_concat {c : Char} (h : Text.isSpace c = true) (text : Text) :
    pieces (text ++ [c]) = pieces text := by
  induction text using Gaps.ink_induction (fun d => !Text.isLineBreak d) with
  | all front hfront =>
    have hclean : ∀ d ∈ front, Text.isLineBreak d = false := fun d hd => by
      simpa using hfront d hd
    by_cases hc : Text.isLineBreak c = true
    · rw [pieces_break hc, pieces_nil, List.append_nil]
    · have hclean' : ∀ d ∈ front ++ [c], Text.isLineBreak d = false := by
        intro d hd
        rcases List.mem_append.mp hd with hd | hd
        · exact hclean d hd
        · rw [List.mem_singleton.mp hd]
          simpa using hc
      rw [pieces_clean hclean', pieces_clean hclean, strip_concat h]
  | ink front d back hfront hd ih =>
    have hd' : Text.isLineBreak d = true := by simpa using hd
    rw [List.append_assoc, List.cons_append, pieces_break hd', pieces_break hd', ih]

theorem pieces_append_blanks {blanks : Text} (h : ∀ c ∈ blanks, Text.isSpace c = true)
    (text : Text) : pieces (text ++ blanks) = pieces text := by
  induction blanks generalizing text with
  | nil => rw [List.append_nil]
  | cons c blanks ih =>
    have hassoc : text ++ c :: blanks = (text ++ [c]) ++ blanks := by simp
    rw [hassoc, ih (fun d hd => h d (List.mem_cons_of_mem _ hd)),
      pieces_concat (h c List.mem_cons_self)]

theorem records_splitlines (text : Text) : records (splitlines text) = pieces text := by
  unfold splitlines pieces
  split
  case isTrue hlast =>
    obtain ⟨front, hfront⟩ := List.getLast?_eq_some_iff.mp hlast
    rw [hfront, List.dropLast_concat, records_append]
    simp [records, Text.strip]
  case isFalse => rfl

/-- The translation of line ends leaves the lines that are not blank as they are. -/
theorem pieces_universalNewlines (front text : Text) :
    pieces (front ++ universalNewlines text) = pieces (front ++ text) := by
  have hfeed : Text.isLineBreak '\n' = true := by decide
  have hreturn : Text.isLineBreak '\r' = true := by decide
  induction text using universalNewlines.induct generalizing front with
  | case1 rest ih =>
    have hrest : pieces (universalNewlines rest) = pieces rest := ih []
    have hblank : pieces ('\n' :: rest) = pieces rest := pieces_break hfeed [] rest
    rw [universalNewlines, pieces_break hfeed, pieces_break hreturn, hrest, hblank]
  | case2 rest hnot ih =>
    have hrest : pieces (universalNewlines rest) = pieces rest := ih []
    rw [universalNewlines, pieces_break hfeed, pieces_break hreturn, hrest]
    exact hnot
  | case3 c rest hreturn' hnot ih =>
    have hassoc (back : Text) : front ++ c :: back = (front ++ [c]) ++ back := by simp
    rw [universalNewlines, hassoc, hassoc rest, ih]
    all_goals assumption
  | case4 => rfl

/-- The lines with a line feed between them. -/
def unlines : List Text → Text
  | [] => []
  | [line] => line
  | line :: next :: lines => line ++ '\n' :: unlines (next :: lines)

theorem pieces_unlines (lines : List Text) : pieces (unlines lines) = lines.flatMap pieces := by
  induction lines using unlines.induct with
  | case1 => rfl
  | case2 line => simp [unlines]
  | case3 line next lines ih =>
    rw [unlines, pieces_break (by decide), ih]
    simp only [List.flatMap_cons]

/-! ### A line that holds an object -/

/-- The text of a line without the white space that JSON allows around it. -/
def trim (line : Text) : Text := (skipBlanks line).rdropWhile isBlank

theorem isSpace_of_isBlank {c : Char} (h : isBlank c = true) : Text.isSpace c = true := by
  have hmem : c ∈ [' ', '\t', '\n', '\r'] := by simpa [isBlank] using h
  simp only [List.mem_cons, List.not_mem_nil, or_false] at hmem
  rcases hmem with rfl | rfl | rfl | rfl <;> decide

theorem trim_split (line : Text) : ∃ before after, line = before ++ (trim line ++ after) ∧
    (∀ c ∈ before, isBlank c = true) ∧ ∀ c ∈ after, isBlank c = true :=
  ⟨line.takeWhile isBlank, (skipBlanks line).rtakeWhile isBlank, by
    unfold trim skipBlanks
    rw [List.rdropWhile_append_rtakeWhile, List.takeWhile_append_dropWhile],
    fun _ hc => List.mem_takeWhile_imp hc, fun _ hc => List.mem_rtakeWhile_imp hc⟩

theorem pieces_trim (line : Text) : pieces line = pieces (trim line) := by
  obtain ⟨before, after, hsplit, hbefore, hafter⟩ := trim_split line
  rw [hsplit, pieces_blanks fun c hc => isSpace_of_isBlank (hbefore c hc),
    pieces_append_blanks fun c hc => isSpace_of_isBlank (hafter c hc), ← hsplit]

/-- Between white space there is just the object. -/
theorem trim_object {line : Text} {read : Value} (h : loads (trim line) = some read)
    (hobject : isObject read = true) :
    ∃ inner, trim line = '\x7b' :: (inner ++ ['\x7d']) ∧ Level inner := by
  obtain ⟨before, inner, after, hsplit, hinner, hbefore, hafter⟩ := loads_object h hobject
  have hbeforeNil : before = [] := by
    cases before with
    | nil => rfl
    | cons c before =>
      have hfront : trim line <+: skipBlanks line := List.rdropWhile_prefix _ _
      obtain ⟨back, hback⟩ := hfront
      rw [hsplit] at hback
      have hhead := List.head?_dropWhile_not isBlank line
      unfold skipBlanks at hback
      rw [← hback] at hhead
      have hc : isBlank c = true := hbefore c List.mem_cons_self
      simp [hc] at hhead
  have hafterNil : after = [] := by
    rcases List.eq_nil_or_concat after with rfl | ⟨after, c, rfl⟩
    · rfl
    · have hne : trim line ≠ [] := by
        rw [hsplit]
        simp
      have hlast := List.rdropWhile_last_not isBlank (skipBlanks line) hne
      have hc : isBlank c = true := hafter c (by simp)
      have heq : (trim line).getLast hne = c := by
        simp only [hsplit]
        simp
      exact absurd (heq ▸ hc) hlast
  exact ⟨inner, by rw [hsplit, hbeforeNil, hafterNil]; rfl, hinner⟩

theorem strip_brace (text : Text) :
    Text.strip ('\x7b' :: text) = '\x7b' :: text.rdropWhile Text.isSpace := by
  have hbrace : Text.isSpace '\x7b' = false := by decide
  unfold Text.strip
  rw [List.dropWhile_cons_of_neg (by rw [hbrace]; exact Bool.false_ne_true)]
  exact Gaps.rdropWhile_ink hbrace [] text

theorem pieces_of_clean {inner : Text}
    (hclean : ∀ c ∈ '\x7b' :: (inner ++ ['\x7d']), Text.isLineBreak c = false) :
    pieces ('\x7b' :: (inner ++ ['\x7d'])) = ['\x7b' :: (inner ++ ['\x7d'])] := by
  have hbrace : Text.isSpace '\x7d' = false := by decide
  have hstrip : Text.strip ('\x7b' :: (inner ++ ['\x7d'])) = '\x7b' :: (inner ++ ['\x7d']) := by
    rw [strip_brace, Gaps.rdropWhile_ink hbrace, List.rdropWhile_nil]
  rw [pieces_clean hclean, hstrip, if_neg (by simp)]

/-- A line break inside of an object leaves a beginning of it that cannot be read. -/
theorem pieces_of_break {inner : Text} (hinner : Level inner)
    (hbreak : ¬ ∀ c ∈ '\x7b' :: (inner ++ ['\x7d']), Text.isLineBreak c = false) :
    ∃ first rest, pieces ('\x7b' :: (inner ++ ['\x7d'])) = first :: rest ∧ loads first = none := by
  rcases clean_or_break ('\x7b' :: (inner ++ ['\x7d'])) with
    hclean | ⟨front, c, back, hsplit, hfront, hc⟩
  · exact absurd hclean hbreak
  · obtain ⟨tail, rfl⟩ : ∃ tail, front = '\x7b' :: tail := by
      rcases List.cons_eq_append_iff.mp hsplit with ⟨-, hhead⟩ | ⟨tail, htail, -⟩
      · obtain ⟨rfl, -⟩ := List.cons.inj hhead
        exact absurd hc (by decide)
      · exact ⟨tail, htail⟩
    have hread : loads ('\x7b' :: tail.rdropWhile Text.isSpace) = none := by
      have hcut : '\x7b' :: (inner ++ ['\x7d']) =
          '\x7b' :: tail.rdropWhile Text.isSpace ++
            (tail.rtakeWhile Text.isSpace ++ c :: back) := by
        rw [hsplit, List.cons_append, List.cons_append, ← List.append_assoc,
          List.rdropWhile_append_rtakeWhile]
      exact loads_beginning hinner hcut (by simp) (by simp)
    refine ⟨_, pieces back, ?_, hread⟩
    rw [hsplit, pieces_break hc, pieces_clean hfront, strip_brace, if_neg (by simp)]
    rfl

end Ekip.Evaluation.Datasets
