import Ekip.Lib.Text
import Ekip.Lib.Packing
import Ekip.Ingestion.Indexing

/-!
# Cutting a text into chunks: `ingestion/processors/chunking.py`

A text is cut at headings or definitions. A section that is too long is cut at its
blank lines, and a paragraph that is too long into slices. The paragraphs of a section
are packed greedily, with the two line feeds between them as the gap.
-/
namespace Ekip.Ingestion.Chunking

open Ekip.Lib Ekip.Ingestion.Indexing

/-! ## Python's `str` -/

/-- `text[start:stop]`. -/
def slice (text : Text) (start stop : Nat) : Text := (text.drop start).take (stop - start)

/-- `bool(text.strip())`. -/
def hasText (text : Text) : Bool := text.any fun c => !Text.isSpace c

/-- `text.split("\n\n")`. -/
def splitBlank : Text → List Text
  | '\n' :: '\n' :: rest => [] :: splitBlank rest
  | c :: rest =>
    match splitBlank rest with
    | [] => [[c]]
    | paragraph :: paragraphs => (c :: paragraph) :: paragraphs
  | [] => [[]]

/-- `"\n\n".join(paragraphs)`. -/
def joinBlank : List Text → Text
  | [] => []
  | paragraph :: paragraphs => paragraph ++ paragraphs.flatMap fun next => '\n' :: '\n' :: next

/-- `text.find(part, start)`, where it does not answer -1. -/
def find (text part : Text) (start : Nat) : Option Nat :=
  (List.range' start (text.length + 1 - start)).find? fun i => part.isPrefixOf (text.drop i)

/-! ## Boundaries -/

def definitionWords : List Text :=
  ["def ", "class ", "function ", "func ", "public ", "private ", "protected ", "impl ", "struct ",
    "interface "].map String.toList

/-- The length of a match of `_CODE_BOUNDARY` at the head of the text. -/
def codeBoundary (text : Text) : Option Nat :=
  [4, 3, 2, 1, 0].findSome? fun indent =>
    if indent ≤ text.length ∧ (text.take indent).all Text.isSpace then
      (definitionWords.find? fun word => word.isPrefixOf (text.drop indent)).map fun word =>
        indent + word.length
    else none

/-- The length of a match of `_HEADING_BOUNDARY` at the head of the text. The spaces
may be line feeds; they give one back where nothing follows them. -/
def headingBoundary (text : Text) : Option Nat :=
  [6, 5, 4, 3, 2, 1].findSome? fun level =>
    if level ≤ text.length ∧ (text.take level).all (· = '#') then
      let spaces := ((text.drop level).takeWhile Text.isSpace).length
      (List.range' 1 spaces).reverse.findSome? fun count =>
        let line := (text.drop (level + count)).takeWhile (· ≠ '\n')
        if line = [] then none else some (level + count + line.length)
    else none

/-- `[match.start() for match in pattern.finditer(content)]`, from a position on:
`lineStart` says whether `^` matches there, and `skip` is what is left of a match. -/
def matchStarts (boundary : Text → Option Nat) : Nat → Bool → Nat → Text → List Nat
  | _, _, _, [] => []
  | position, _, skip + 1, c :: rest =>
    matchStarts boundary (position + 1) (c = '\n') skip rest
  | position, lineStart, 0, c :: rest =>
    match if lineStart then boundary (c :: rest) else none with
    | some length =>
      position :: matchStarts boundary (position + 1) (c = '\n') (length - 1) rest
    | none => matchStarts boundary (position + 1) (c = '\n') 0 rest

def findBoundaries (content : Text) (boundary : Text → Option Nat) : List Nat :=
  let offsets := matchStarts boundary 0 true 0 content
  if offsets.head? = some 0 then offsets else 0 :: offsets

def boundaries (content : Text) : ContentType → List Nat
  | .code => findBoundaries content codeBoundary
  | .chat | .incident => [0]
  | .document => findBoundaries content headingBoundary

/-! ## Sections and pieces -/

/-- A text and the offset at which it begins. -/
abbrev Piece := Nat × Text

def sliceByBoundaries (content : Text) : List Nat → List Piece
  | [] => []
  | start :: rest =>
    let sectionText := slice content start (rest.head?.getD content.length)
    if hasText sectionText then (start, sectionText) :: sliceByBoundaries content rest
    else sliceByBoundaries content rest

/-- The paragraphs with the offsets at which they are found; each is found. -/
def locate (text : Text) : Nat → List Text → List Piece
  | _, [] => []
  | searchFrom, paragraph :: rest =>
    let offset := (find text paragraph searchFrom).getD 0
    (offset, paragraph) :: locate text (offset + paragraph.length) rest

def groupFrom (maxChars : Nat) : Nat → Text → List Piece → List Piece
  | groupStart, groupText, [] => [(groupStart, groupText)]
  | groupStart, groupText, (offset, paragraph) :: rest =>
    let candidate := groupText ++ '\n' :: '\n' :: paragraph
    if maxChars < candidate.length then
      (groupStart, groupText) :: groupFrom maxChars offset paragraph rest
    else groupFrom maxChars groupStart candidate rest

def grouped (maxChars : Nat) : List Piece → List Piece
  | [] => []
  | (groupStart, groupText) :: rest => groupFrom maxChars groupStart groupText rest

/-- `range(0, len(piece), max_chars)`. -/
def sliceStarts (maxChars length : Nat) : List Nat :=
  (List.range ((length + maxChars - 1) / maxChars)).map fun i => i * maxChars

def cutPiece (maxChars : Nat) (piece : Piece) : List Piece :=
  if piece.2.length ≤ maxChars then [piece]
  else
    (sliceStarts maxChars piece.2.length).map fun start =>
      (piece.1 + start, slice piece.2 start (start + maxChars))

def splitOversized (text : Text) (maxChars : Nat) : List Piece :=
  if text.length ≤ maxChars then [(0, text)]
  else (grouped maxChars (locate text 0 (splitBlank text))).flatMap (cutPiece maxChars)

/-! ## Chunks -/

structure Chunk where
  chunkIndex : Nat
  content : Text
  sourceOffsetStart : Nat
  sourceOffsetEnd : Nat

/-- `_MAX_CHUNK_CHARS`. -/
def maxChunkChars : Nat := 2000

/-- The pieces of all sections, with offsets into the content. -/
def pieces (content : Text) (contentType : ContentType) (maxChars : Nat) : List Piece :=
  (sliceByBoundaries content (boundaries content contentType)).flatMap fun part =>
    (splitOversized part.2 maxChars).map fun piece => (part.1 + piece.1, piece.2)

def chunkDocument (content : Text) (contentType : ContentType) (maxChars : Nat) : List Chunk :=
  (pieces content contentType maxChars).mapIdx fun chunkIndex piece =>
    { chunkIndex
      content := piece.2
      sourceOffsetStart := piece.1
      sourceOffsetEnd := piece.1 + piece.2.length }

end Ekip.Ingestion.Chunking
