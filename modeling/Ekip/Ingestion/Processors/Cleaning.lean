import Ekip.Ingestion.Processors.Chunking
import Ekip.Lib.Gaps

/-!
# Cleaning a text: `ingestion/processors/cleaning.py`

Entities are decoded, tags become spaces, control characters go, long runs of line
feeds shrink to two, and the lines lose the white space at their ends. The lines are
trimmed last, so that lines of spaces leave runs of line feeds that are not shrunk.
-/
namespace Ekip.Ingestion.Cleaning

open Ekip.Lib Ekip.Ingestion.Indexing

/-- `pattern.sub(replacement, text)`: `pattern` gives the length of a match at the head
of a text, and `skip` is what is left of a match. -/
def sub (pattern : Text → Option Nat) (replacement : Text) : Nat → Text → Text
  | _, [] => []
  | skip + 1, _ :: rest => sub pattern replacement skip rest
  | 0, c :: rest =>
    match pattern (c :: rest) with
    | some length => replacement ++ sub pattern replacement (length - 1) rest
    | none => c :: sub pattern replacement 0 rest

/-- `_EXCESS_BLANK_LINES`. -/
def excessBlankLines (text : Text) : Option Nat :=
  let run := (text.takeWhile (· = '\n')).length
  if 3 ≤ run then some run else none

/-- `_HTML_TAG`. -/
def htmlTag : Text → Option Nat
  | '<' :: rest =>
    let body := rest.takeWhile (· ≠ '>')
    if body ≠ [] ∧ body.length < rest.length then some (body.length + 2) else none
  | _ => none

/-- `_CONTROL_CHARS`. -/
def isControl (c : Char) : Bool :=
  c.toNat ≤ 0x08 || c.toNat = 0x0B || c.toNat = 0x0C || (0x0E ≤ c.toNat && c.toNat ≤ 0x1F)

/-- `line.rstrip()`. -/
def rstrip (line : Text) : Text := line.rdropWhile Text.isSpace

/-- `html.unescape` is the parameter. -/
def cleanContent (unescape : Text → Text) (rawContent : Text) : Text :=
  let text := unescape rawContent
  let text := sub htmlTag [' '] 0 text
  let text := text.filter fun c => !isControl c
  let text := sub excessBlankLines ['\n', '\n'] 0 text
  let text := ['\n'].intercalate ((text.splitOn '\n').map rstrip)
  Text.strip text

/-! ## The pipeline: `ingestion/processors/pipeline.py` -/

/-- The stages that `process_document` runs, on strings. -/
def textProcessors (unescape : Text → Text) (sha256Hexdigest : String → String) : Processors where
  cleanContent rawContent := String.ofList (cleanContent unescape rawContent.toList)
  sha256Hexdigest
  chunkDocument content contentType :=
    (Chunking.chunkDocument content.toList contentType Chunking.maxChunkChars).map fun chunk =>
      { content := String.ofList chunk.content
        sourceOffsetStart := chunk.sourceOffsetStart
        sourceOffsetEnd := chunk.sourceOffsetEnd }

/-- What is cut is what the cleaning left. -/
theorem processDocument_chunks (unescape : Text → Text) (sha256Hexdigest : String → String)
    (raw : RawDocument) :
    (Indexing.processDocument (textProcessors unescape sha256Hexdigest) raw).chunks =
      (Chunking.chunkDocument (cleanContent unescape raw.content.toList) (classifyContentType raw)
        Chunking.maxChunkChars).map fun chunk =>
          { content := String.ofList chunk.content
            sourceOffsetStart := chunk.sourceOffsetStart
            sourceOffsetEnd := chunk.sourceOffsetEnd } := by
  unfold Indexing.processDocument textProcessors
  simp only [String.toList_ofList]

/-!
## What cleaning leaves

A cleaned text has no tag, no control character and no white space at its ends or at
the ends of its lines. Runs of line feeds are shrunk before the lines are trimmed, so
lines of spaces can leave three in a row.
-/

/-! ## Tags -/

/-- `<[^>]+>` matches nowhere. -/
def NoTag (text : Text) : Prop :=
  ∀ pre body post, text = pre ++ '<' :: (body ++ '>' :: post) → body ≠ [] → '>' ∈ body

/-- A `<` has no `>` after it, or has it right behind. -/
def Harmless (text : Text) : Prop :=
  ∀ pre rest, text = pre ++ '<' :: rest → '>' ∉ rest ∨ rest.head? = some '>'

theorem noTag_of_harmless {text : Text} (h : Harmless text) : NoTag text := by
  intro pre body post htext hbody
  rcases h pre (body ++ '>' :: post) htext with hnone | hhead
  · exact absurd (List.mem_append_right body List.mem_cons_self) hnone
  · cases body with
    | nil => exact absurd rfl hbody
    | cons c body =>
      have hc : c = '>' := by simpa using hhead
      rw [hc]
      exact List.mem_cons_self

theorem Harmless.cons {c : Char} {text : Text} (h : Harmless text)
    (hc : c = '<' → '>' ∉ text ∨ text.head? = some '>') : Harmless (c :: text) := by
  intro pre rest htext
  cases pre with
  | nil =>
    obtain ⟨rfl, rfl⟩ := List.cons.inj htext
    exact hc rfl
  | cons d pre => exact h pre rest (List.cons.inj htext).2

/-- What no bracket is can go. -/
theorem Harmless.thinned {s text : Text} (h : Harmless text)
    (hthin : Gaps.Thinned (fun c => c ≠ '<' ∧ c ≠ '>') s text) : Harmless s := by
  induction hthin with
  | nil => exact h
  | @keep c s l hthin ih =>
    have hl : Harmless l := by
      intro pre rest hrest
      exact h (c :: pre) rest (congrArg (c :: ·) hrest)
    refine (ih hl).cons ?_
    rintro rfl
    rcases h [] l rfl with hnone | hhead
    · exact .inl fun hmem => hnone (hthin.sublist.subset hmem)
    · cases hthin with
      | nil => exact absurd hhead (by simp)
      | keep d _ => exact .inr hhead
      | drop hd _ =>
        have hbracket := Option.some.inj hhead
        exact absurd hbracket hd.2
  | @drop c s l _ _ ih =>
    refine ih ?_
    intro pre rest hrest
    exact h (c :: pre) rest (congrArg (c :: ·) hrest)

theorem sub_skip (pattern : Text → Option Nat) (replacement : Text) (skip : Nat) (text : Text) :
    sub pattern replacement skip text = sub pattern replacement 0 (text.drop skip) := by
  induction text generalizing skip with
  | nil => rw [List.drop_nil]; cases skip <;> rfl
  | cons c text ih =>
    cases skip with
    | zero => rfl
    | succ skip =>
      rw [List.drop_succ_cons]
      show sub pattern replacement skip text = _
      exact ih skip

theorem sub_cons (pattern : Text → Option Nat) (replacement : Text) (c : Char) (text : Text) :
    sub pattern replacement 0 (c :: text) = match pattern (c :: text) with
      | some length => replacement ++ sub pattern replacement 0 (text.drop (length - 1))
      | none => c :: sub pattern replacement 0 text := by
  rw [sub]
  cases pattern (c :: text) with
  | none => rfl
  | some length =>
    show replacement ++ sub pattern replacement (length - 1) text = _
    rw [sub_skip]

theorem mem_sub {pattern : Text → Option Nat} {replacement : Text} {d : Char} {text : Text}
    (h : d ∈ sub pattern replacement 0 text) : d ∈ replacement ∨ d ∈ text := by
  induction hn : text.length using Nat.strong_induction_on generalizing text with
  | h n ih =>
    cases text with
    | nil => exact absurd h List.not_mem_nil
    | cons c text =>
      rw [sub_cons] at h
      have hlt : ∀ k, (text.drop k).length < n := by
        intro k
        rw [List.length_drop, ← hn, List.length_cons]
        omega
      split at h
      · rcases List.mem_append.mp h with hnew | hrest
        · exact .inl hnew
        · rename_i length _
          rcases ih _ (hlt (length - 1)) hrest rfl with hnew | hold
          · exact .inl hnew
          · exact .inr (List.mem_cons_of_mem c ((List.drop_sublist _ _).subset hold))
      · rcases List.mem_cons.mp h with rfl | hrest
        · exact .inr List.mem_cons_self
        · rcases ih _ (hlt 0) hrest rfl with hnew | hold
          · exact .inl hnew
          · exact .inr (List.mem_cons_of_mem c hold)

theorem htmlTag_open (rest : Text) : htmlTag ('<' :: rest) =
    if rest.takeWhile (· ≠ '>') ≠ [] ∧ (rest.takeWhile (· ≠ '>')).length < rest.length then
      some ((rest.takeWhile (· ≠ '>')).length + 2)
    else none := rfl

/-- Where no tag starts, the bracket is harmless. -/
theorem htmlTag_none {text : Text} (h : htmlTag ('<' :: text) = none) :
    '>' ∉ text ∨ text.head? = some '>' := by
  rw [htmlTag_open] at h
  rcases Gaps.blank_or_ink (fun c => decide (c ≠ '>')) text with hall | ⟨body, c, rest, rfl, hbody, hc⟩
  · refine .inl ?_
    intro hmem
    simpa using hall '>' hmem
  · have hbracket : c = '>' := by simpa using hc
    subst hbracket
    cases body with
    | nil => exact .inr rfl
    | cons d body =>
      have htake : (d :: body ++ '>' :: rest).takeWhile (fun c => decide (c ≠ '>')) = d :: body := by
        rw [List.takeWhile_append_of_pos hbody]
        simp
      rw [htake, if_pos] at h
      · exact absurd h (by simp)
      · refine ⟨by simp, ?_⟩
        rw [List.length_append, List.length_cons, List.length_cons]
        omega

theorem sub_htmlTag_harmless (text : Text) : Harmless (sub htmlTag [' '] 0 text) := by
  induction hn : text.length using Nat.strong_induction_on generalizing text with
  | h n ih =>
    cases text with
    | nil =>
      intro pre rest h
      exact absurd h.symm (by simp [sub])
    | cons c text =>
      have hlt : ∀ k, (text.drop k).length < n := by
        intro k
        rw [List.length_drop, ← hn, List.length_cons]
        omega
      rw [sub_cons]
      split
      · rename_i length _
        refine (ih _ (hlt (length - 1)) _ rfl).cons ?_
        intro hspace
        exact absurd hspace (by decide)
      · rename_i hnone
        refine (ih _ (hlt 0) _ rfl).cons ?_
        rintro rfl
        rcases htmlTag_none hnone with hclean | hhead
        · refine .inl ?_
          intro hmem
          rcases mem_sub hmem with hspace | hold
          · exact absurd hspace (by decide)
          · exact hclean hold
        · obtain ⟨rest, rfl⟩ := List.head?_eq_some_iff.mp hhead
          refine .inr ?_
          show (sub htmlTag [' '] 0 ('>' :: rest)).head? = some '>'
          rw [sub_cons]
          rfl

/-! ## The passes after the tags -/

theorem excessBlankLines_run (n : Nat) {text : Text} (h : text.head? ≠ some '\n') :
    excessBlankLines (List.replicate n '\n' ++ text) = if 3 ≤ n then some n else none := by
  have hrun : (List.replicate n '\n' ++ text).takeWhile (fun c => decide (c = '\n')) =
      List.replicate n '\n' := by
    rw [List.takeWhile_append_of_pos]
    · cases text with
      | nil => simp
      | cons c text =>
        have hc : c ≠ '\n' := by simpa using h
        simp [hc]
    · intro c hc
      rw [List.eq_of_mem_replicate hc]
      rfl
  unfold excessBlankLines
  dsimp only
  rw [hrun, List.length_replicate]

theorem sub_run (n : Nat) {text : Text} (h : text.head? ≠ some '\n') :
    sub excessBlankLines ['\n', '\n'] 0 (List.replicate n '\n' ++ text) =
      List.replicate (min n 2) '\n' ++ sub excessBlankLines ['\n', '\n'] 0 text := by
  have hstep : ∀ k, sub excessBlankLines ['\n', '\n'] 0 (List.replicate (k + 1) '\n' ++ text) =
      if 3 ≤ k + 1 then ['\n', '\n'] ++ sub excessBlankLines ['\n', '\n'] 0 text
      else '\n' :: sub excessBlankLines ['\n', '\n'] 0 (List.replicate k '\n' ++ text) := by
    intro k
    have hmatch := excessBlankLines_run (k + 1) h
    rw [List.replicate_succ, List.cons_append] at hmatch ⊢
    rw [sub_cons, hmatch]
    by_cases hk : 3 ≤ k + 1
    · rw [if_pos hk, if_pos hk]
      show _ ++ sub excessBlankLines _ 0 (List.drop k (List.replicate k '\n' ++ text)) = _
      rw [List.drop_left' List.length_replicate]
    · rw [if_neg hk, if_neg hk]
  rcases n with _ | _ | _ | n
  · rfl
  · rw [hstep]
    rfl
  · rw [hstep, if_neg (by omega), hstep]
    rfl
  · have hmin : min (n + 1 + 1 + 1) 2 = 2 := by omega
    rw [hstep, if_pos (by omega), hmin]
    rfl

/-- Every run of line feeds is shrunk to two. -/
theorem sub_excessBlankLines (text : Text) :
    sub excessBlankLines ['\n', '\n'] 0 text = Gaps.shrink '\n' text := by
  have hreplicate : ∀ g : Text, (∀ c ∈ g, decide (c = '\n') = true) →
      g = List.replicate g.length '\n' := by
    intro g hg
    exact List.eq_replicate_of_mem fun c hc => by simpa using hg c hc
  induction text using Gaps.ink_induction (fun c => decide (c = '\n')) with
  | all g hg =>
    have hsub := @sub_run g.length [] (by simp)
    have hshrink := @Gaps.shrink_run _ _ '\n' g.length [] (by simp)
    rw [← hreplicate g hg, List.append_nil] at hsub hshrink
    rw [hsub, hshrink]
    rfl
  | ink g c rest hg hc ih =>
    have hne : c ≠ '\n' := by simpa using hc
    have hhead : (c :: rest).head? ≠ some '\n' := by simpa using hne
    have hsub := sub_run g.length hhead
    have hshrink := Gaps.shrink_run g.length hhead
    have hmatch := excessBlankLines_run 0 hhead
    rw [← hreplicate g hg] at hsub hshrink
    rw [List.replicate_zero, List.nil_append] at hmatch
    rw [hsub, hshrink, sub_cons, hmatch, Gaps.shrink_cons_other hne, ← ih]
    rfl

/-! ## What is left -/

/-- The decoded text without tags and control characters. -/
def withoutMarkup (unescape : Text → Text) (rawContent : Text) : Text :=
  (sub htmlTag [' '] 0 (unescape rawContent)).filter fun c => !isControl c

theorem isSpace_feed : Text.isSpace '\n' = true := by decide

/-- The passes after the markup as passes over the stretches of white space. -/
theorem cleanContent_eq (unescape : Text → Text) (rawContent : Text) :
    cleanContent unescape rawContent = Text.strip (Gaps.trimTo Text.isSpace '\n' true
      (Gaps.shrink '\n' (withoutMarkup unescape rawContent))) := by
  unfold cleanContent
  dsimp only
  rw [sub_excessBlankLines]
  congr 1
  exact Gaps.join_lines _

def droppable (c : Char) : Prop := isControl c = true ∨ Text.isSpace c = true

theorem droppable_space {c : Char} (h : Text.isSpace c = true) : droppable c := .inr h

/-- After the tags, only white space and control characters go. -/
theorem cleanContent_thinned (unescape : Text → Text) (rawContent : Text) :
    Gaps.Thinned droppable (cleanContent unescape rawContent)
      (sub htmlTag [' '] 0 (unescape rawContent)) := by
  rw [cleanContent_eq]
  have hfilter : Gaps.Thinned droppable (withoutMarkup unescape rawContent)
      (sub htmlTag [' '] 0 (unescape rawContent)) := by
    refine Gaps.Thinned.filter ?_ _
    intro c hc
    exact .inl (by simpa using hc)
  exact (Gaps.Thinned.strip (fun _ => droppable_space) _).trans
    ((Gaps.Thinned.trimTo (fun _ => droppable_space) _).trans
      ((Gaps.Thinned.shrink (droppable_space isSpace_feed) _).trans hfilter))

structure Clean (text : Text) : Prop where
  noTag : NoTag text
  noControl : ∀ c ∈ text, isControl c = false
  lineEnds : ∀ line ∈ text.splitOn '\n', ∀ c ∈ line.getLast?, Text.isSpace c = false
  stripped : (∀ c ∈ text.head?, Text.isSpace c = false) ∧
    ∀ c ∈ text.getLast?, Text.isSpace c = false
  noRun : ¬ ['\n', '\n', '\n'] <:+: text

section Left

variable (unescape : Text → Text) (rawContent : Text)

theorem cleanContent_noTag : NoTag (cleanContent unescape rawContent) := by
  refine noTag_of_harmless ((sub_htmlTag_harmless (unescape rawContent)).thinned ?_)
  refine (cleanContent_thinned unescape rawContent).mono ?_
  rintro c (hcontrol | hspace)
  · constructor
    · rintro rfl
      exact absurd hcontrol (by decide)
    · rintro rfl
      exact absurd hcontrol (by decide)
  · constructor
    · rintro rfl
      exact absurd hspace (by decide)
    · rintro rfl
      exact absurd hspace (by decide)

theorem cleanContent_noControl : ∀ c ∈ cleanContent unescape rawContent, isControl c = false := by
  intro c hc
  rw [cleanContent_eq] at hc
  have hstrip := (@Gaps.Thinned.strip _ _ Text.isSpace (fun _ _ => trivial) _).sublist.subset hc
  have hin := Gaps.mem_of_mem_shrink (Gaps.mem_of_mem_trimTo hstrip)
  simpa using (List.mem_filter.mp hin).2

theorem strip_last (text : Text) : ∀ c ∈ (Text.strip text).getLast?, Text.isSpace c = false := by
  intro c hc
  have hne : Text.strip text ≠ [] := by
    intro hnil
    rw [hnil] at hc
    exact absurd hc (by simp)
  rw [List.getLast?_eq_getLast_of_ne_nil hne] at hc
  have hlast := List.rdropWhile_last_not Text.isSpace (text.dropWhile Text.isSpace) hne
  rw [← Option.some.inj hc]
  exact Bool.eq_false_iff.mpr hlast

theorem strip_head (text : Text) : ∀ c ∈ (Text.strip text).head?, Text.isSpace c = false := by
  intro c hc
  have hprefix : Text.strip text <+: text.dropWhile Text.isSpace := List.rdropWhile_prefix _ _
  obtain ⟨rest, hrest⟩ := hprefix
  have hhead : (text.dropWhile Text.isSpace).head? = some c := by
    obtain ⟨tail, htail⟩ := List.head?_eq_some_iff.mp hc
    rw [← hrest, htail]
    rfl
  have hnot := List.head?_dropWhile_not Text.isSpace text
  rw [hhead] at hnot
  simpa using hnot

/-- A blank before a line feed would have been trimmed. -/
theorem cleanContent_lineEnds : ∀ line ∈ (cleanContent unescape rawContent).splitOn '\n',
    ∀ c ∈ line.getLast?, Text.isSpace c = false := by
  intro line hline c hc
  rw [cleanContent_eq] at hline
  generalize htrimmed : Gaps.trimTo Text.isSpace '\n' true
    (Gaps.shrink '\n' (withoutMarkup unescape rawContent)) = trimmed at hline
  obtain ⟨hnone, x, y, htext, hy⟩ := Gaps.line_of_mem hline
  obtain ⟨front, rfl⟩ : ∃ front, line = front ++ [c] := List.getLast?_eq_some_iff.mp hc
  rcases hy with rfl | ⟨z, rfl⟩
  · refine strip_last trimmed c ?_
    rw [htext, List.append_nil, ← List.append_assoc]
    exact List.getLast?_concat
  · by_contra hspace
    have hblank : Text.isSpace c = true := by simpa using hspace
    have hinfix : Text.strip trimmed <:+: trimmed :=
      (List.rdropWhile_prefix _ _).isInfix.trans (List.dropWhile_suffix _).isInfix
    obtain ⟨before, after, hwhole⟩ := hinfix
    have hfeed : c = '\n' := by
      refine @Gaps.trimTo_ends _ _ _ _ true (Gaps.shrink '\n' (withoutMarkup unescape rawContent))
        (before ++ x ++ front) c (z ++ after) ?_ hblank
      rw [htrimmed, ← hwhole, htext]
      simp
    rw [hfeed] at hnone
    exact hnone (by simp)

/-- Three line feeds in a row are left of a stretch that held three not all in a row. -/
theorem cleanContent_noRun : (¬ ['\n', '\n', '\n'] <:+: cleanContent unescape rawContent) ↔
    ∀ gap ∈ Gaps.gaps Text.isSpace (withoutMarkup unescape rawContent),
      gap.count '\n' ≤ 2 ∨ Gaps.OneRun '\n' gap := by
  have hblank : ∀ c ∈ ['\n', '\n', '\n'], Text.isSpace c = true := by
    intro c hc
    have hfeed : c = '\n' := by simpa using hc
    subst hfeed
    decide
  have hgap : ∀ gap ∈ Gaps.gaps Text.isSpace (withoutMarkup unescape rawContent),
      (['\n', '\n', '\n'] <:+: Gaps.trimTo Text.isSpace '\n' false (Gaps.shrink '\n' gap) ↔
        ¬ (gap.count '\n' ≤ 2 ∨ Gaps.OneRun '\n' gap)) := by
    intro gap hmem
    have hspaces : ∀ c ∈ Gaps.shrink '\n' gap, Text.isSpace c = true := fun c hc =>
      Gaps.blank_of_mem_gaps hmem c (Gaps.mem_of_mem_shrink hc)
    rw [show ['\n', '\n', '\n'] = List.replicate 3 '\n' from rfl, Gaps.run_trimTo hspaces,
      ← Gaps.count_shrink_le_two]
    omega
  rw [cleanContent_eq]
  unfold Text.strip
  rw [Gaps.infix_strip (by simp) hblank, Gaps.gaps_trimTo isSpace_feed, Gaps.gaps_shrink isSpace_feed,
    List.map_map]
  constructor
  · intro hnone gap hmem
    by_contra hbad
    exact hnone ⟨_, List.mem_map_of_mem hmem, (hgap gap hmem).mpr hbad⟩
  · rintro hall ⟨_, hmapped, hrun⟩
    obtain ⟨gap, hmem, rfl⟩ := List.mem_map.mp hmapped
    exact (hgap gap hmem).mp hrun (hall gap hmem)

end Left

/-- A text is clean unless three line feeds of one stretch of white space were kept
apart by other white space. -/
theorem clean_content_clean_iff (unescape : Text → Text) (rawContent : Text) :
    Clean (cleanContent unescape rawContent) ↔
      ∀ gap ∈ Gaps.gaps Text.isSpace (withoutMarkup unescape rawContent),
        gap.count '\n' ≤ 2 ∨ Gaps.OneRun '\n' gap := by
  rw [← cleanContent_noRun]
  constructor
  · exact Clean.noRun
  · intro hnone
    exact
      { noTag := cleanContent_noTag unescape rawContent
        noControl := cleanContent_noControl unescape rawContent
        lineEnds := cleanContent_lineEnds unescape rawContent
        stripped := ⟨by rw [cleanContent_eq]; exact strip_head _,
          by rw [cleanContent_eq]; exact strip_last _⟩
        noRun := hnone }

/-- Two lines of one space each. -/
theorem lines_of_spaces_leave_run :
    cleanContent id ['a', '\n', ' ', '\n', ' ', '\n', 'b'] = ['a', '\n', '\n', '\n', 'b'] ∧
      ¬ Clean (cleanContent id ['a', '\n', ' ', '\n', ' ', '\n', 'b']) := by
  have hcleaned : cleanContent id ['a', '\n', ' ', '\n', ' ', '\n', 'b'] =
      ['a', '\n', '\n', '\n', 'b'] := by decide
  refine ⟨hcleaned, ?_⟩
  intro hclean
  refine hclean.noRun ?_
  rw [hcleaned]
  exact ⟨['a'], ['b'], rfl⟩

end Ekip.Ingestion.Cleaning
