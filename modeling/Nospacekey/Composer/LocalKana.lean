import Nospacekey.Composer.Journal
import Nospacekey.Composer.Romaji
import Nospacekey.Composer.Segments
import Nospacekey.Text.Grapheme

/-! The local roman-to-kana composer that owns the canonical reading. -/

namespace Nospacekey

open Utf8

structure LocalKanaComposer where
  stable : Text
  stableSegments : List ReplaySegment
  /-- Byte offsets of literals rejected by roman parsing, recoverable on deletion. -/
  automaticLiterals : List Nat
  pending : Text
  reading : Text
  journal : InputJournal
  suffix : Text
  suffixSegments : List ReplaySegment
  deriving DecidableEq, Repr

namespace LocalKanaComposer

/-- A composer without input. -/
def empty : LocalKanaComposer where
  stable := []
  stableSegments := []
  automaticLiterals := []
  pending := []
  reading := []
  journal := .empty
  suffix := []
  suffixSegments := []

def cursor (c : LocalKanaComposer) : Nat := c.stable.length + c.pending.length

def cursorAtEnd (c : LocalKanaComposer) : Bool := c.suffix.isEmpty

/-- The reading split at the unfinished-roman boundary. -/
def readingParts (c : LocalKanaComposer) : Text × Text := (c.stable, c.pending)

def refreshReading (c : LocalKanaComposer) : LocalKanaComposer :=
  { c with reading := c.stable ++ c.pending ++ c.suffix }

def appendStable (c : LocalKanaComposer) (text : Text) (style : InputStyle) : LocalKanaComposer :=
  { c with stable := c.stable ++ text, stableSegments := appendSegment c.stableSegments text style }

def appendInputUnit (c : LocalKanaComposer) (text : Text) (style : InputStyle) (original : Text) :
    LocalKanaComposer :=
  let start := c.stable.length
  let c := c.appendStable text style
  { c with journal := c.journal.append start (start + text.length) original }

def truncateStable (c : LocalKanaComposer) (len : Nat) : LocalKanaComposer :=
  let stable := takeBytes len c.stable
  { c with
    automaticLiterals := c.automaticLiterals.filter fun offset => offset < len
    stable := stable
    journal := c.journal.retainPrefix stable.length
    stableSegments := truncateSegments len c.stableSegments }

/-- Separate the journal of the text after the cursor, edit, and put it back behind the new cursor. -/
def withDetached (c : LocalKanaComposer) (edit : LocalKanaComposer → LocalKanaComposer) :
    LocalKanaComposer :=
  let detached := c.journal.detachSuffix c.cursor
  let c := edit { c with journal := detached.1 }
  { c with journal := c.journal.appendSuffix detached.2 c.cursor }

/-- What one round of the roman parser takes from the pending keys, and what it leaves of them. -/
structure RomanUnit where
  text : Text
  style : InputStyle
  original : Text
  rest : Text
  deriving DecidableEq, Repr

/-- The next unit of pending keys, or nothing where the parser waits for more keys. -/
def nextUnit (pending : Text) : Option RomanUnit :=
  match pending with
  | [] => none
  | first :: rest =>
    if pending = ['n', 'y'] then none
    else if ['n', 'n'].isPrefixOf pending then some ⟨['ん'], .kana, ['n', 'n'], pending.drop 2⟩
    else
      match lookupRoman pending with
      | some (roman, kana) => some ⟨kana, .kana, roman, pending.drop roman.length⟩
      | none =>
        if first = 'n' && rest.head?.isSome then some ⟨['ん'], .kana, ['n'], rest⟩
        else if first ≠ 'n' && first.isAlpha && rest.head? = some first && !isVowel first then
          some ⟨['っ'], .kana, [first], rest⟩
        else if isRomanPrefix pending then none
        -- Replaying a rejected ASCII letter as kana would let a later key combine with it again,
        -- even though this composer has already frozen it as a literal.
        else some ⟨[first], if first.isAlpha then .direct else .kana, [first], rest⟩

/-- A unit moved from the pending keys to the stable text. Only rejected letters are direct. -/
def acceptUnit (c : LocalKanaComposer) (unit : RomanUnit) : LocalKanaComposer :=
  { c.appendInputUnit unit.text unit.style unit.original with
    automaticLiterals :=
      if unit.style = .direct then c.automaticLiterals ++ [byteLength c.stable] else c.automaticLiterals
    pending := unit.rest }

/-- The roman parser with a bound on its rounds. -/
def advanceWithin : Nat → LocalKanaComposer → LocalKanaComposer
  | 0, c => c
  | fuel + 1, c =>
    match nextUnit c.pending with
    | none => c
    | some unit => advanceWithin fuel (c.acceptUnit unit)

/-- Every round takes a key at least, so there are no more rounds than pending keys. -/
def advancePending (c : LocalKanaComposer) : LocalKanaComposer := c.advanceWithin c.pending.length

def push (c : LocalKanaComposer) (ch : Char) (style : InputStyle) : LocalKanaComposer :=
  (c.withDetached fun c =>
    match style with
    | .kana => advancePending { c with pending := c.pending ++ [ch] }
    | .direct =>
      -- Pending keys are frozen as they are, for the engine would combine them with later input.
      let pending := c.pending
      let c := { c with automaticLiterals := [], pending := [] }
      (c.appendInputUnit pending .direct pending).appendInputUnit [ch] .direct [ch]).refreshReading

/-- The lowest of the adjacent trailing literals from which the tail can be completed again, with
that tail. -/
def reopenFrom (stable pending : Text) : Nat → Option (Nat × Text) → List Nat → Option (Nat × Text)
  | _, reopen, [] => reopen
  | start, reopen, offset :: lower =>
    if offset + 1 ≠ start then reopen
    else
      let candidate := dropBytes offset stable ++ pending
      reopenFrom stable pending offset (if isRomanPrefix candidate then some (offset, candidate) else reopen)
        lower

def reopenRomanTail (c : LocalKanaComposer) : LocalKanaComposer :=
  match reopenFrom c.stable c.pending (byteLength c.stable) none c.automaticLiterals.reverse with
  | some (start, pending) => { c.truncateStable start with pending := pending }
  | none => c

/-- The byte length of the text that a deletion before the cursor leaves. -/
def retainedLen (segmentation : Segmentation) (c : LocalKanaComposer) (readingBoundary : Bool) : Nat :=
  if readingBoundary then
    let previous := ((legalBoundaries c.stable).toOption.bind fun positions =>
      positions.reverse.find? fun position => position < c.cursor).getD 0
    byteLength (c.stable.take previous)
  else
    match (segmentation.graphemes c.stable).getLast? with
    | none => 0
    | some cluster => byteLength c.stable - byteLength cluster

def deleteBeforeCursor (segmentation : Segmentation) (c : LocalKanaComposer) (readingBoundary : Bool) :
    LocalKanaComposer :=
  (c.withDetached fun c =>
    if c.pending.isEmpty then
      (c.truncateStable (c.retainedLen segmentation readingBoundary)).reopenRomanTail
    else { c with pending := c.pending.dropLast }.reopenRomanTail).refreshReading

/-- The pinned engine's grapheme deletion. -/
def backspace (segmentation : Segmentation) (c : LocalKanaComposer) : LocalKanaComposer :=
  c.deleteBeforeCursor segmentation false

/-- Reading edits use legal scalar positions. -/
def backspaceAtCursor (segmentation : Segmentation) (c : LocalKanaComposer) : LocalKanaComposer :=
  c.deleteBeforeCursor segmentation true

/-- The input replaced after the engine has partially committed a prefix. -/
def reseedReading (reading : Text) : LocalKanaComposer :=
  (empty.appendStable reading .kana).refreshReading

/-- The styled segments that replay the current visible reading. -/
def replaySegments (c : LocalKanaComposer) : List ReplaySegment :=
  -- Interior pending input must not combine with the existing suffix on replay.
  let segments := appendSegment c.stableSegments c.pending (if c.suffix.isEmpty then .kana else .direct)
  c.suffixSegments.foldl (fun segments segment => appendSegment segments segment.text segment.style) segments

/-- Pending input frozen where it stands, before the caret leaves it. -/
def freezePending (c : LocalKanaComposer) : LocalKanaComposer :=
  if c.pending.isEmpty then c
  else
    let current := c.cursor
    let detached := c.journal.detachSuffix current
    let pending := c.pending
    let c := { c with journal := detached.1, pending := [] }.appendInputUnit pending .direct pending
    { c with journal := c.journal.appendSuffix detached.2 current }

/-- Moving the caret preserves original units. Only a subsequent edit can invalidate a unit cut by
the new caret. Unfinished roman input is frozen at the old caret so typing elsewhere cannot
recombine with it. -/
def setCursor (c : LocalKanaComposer) (requested : Nat) : LocalKanaComposer × Bool :=
  match legalBoundaries c.reading with
  | .error _ => (c, false)
  | .ok positions =>
    let next := (positions.reverse.find? fun position => position ≤ requested).getD 0
    if next = c.cursor then (c, false)
    else
      let c := c.freezePending
      let split := byteLength (c.reading.take next)
      let segments := splitSegments c.replaySegments split
      ({ c with
          stable := takeBytes split c.reading
          suffix := dropBytes split c.reading
          stableSegments := segments.1
          suffixSegments := segments.2
          automaticLiterals := [] },
        true)

def moveCursor (c : LocalKanaComposer) (direction : Int) : LocalKanaComposer × Bool :=
  match legalBoundaries c.reading with
  | .error _ => (c, false)
  | .ok positions =>
    let next :=
      if 0 < direction then positions.find? fun position => c.cursor < position
      else if direction < 0 then positions.reverse.find? fun position => position < c.cursor
      else none
    match next with
    | none => (c, false)
    | some position => c.setCursor position

def deleteForward (c : LocalKanaComposer) : LocalKanaComposer × Bool :=
  match (legalBoundaries c.reading).toOption.bind fun positions =>
      positions.find? fun position => c.cursor < position with
  | none => (c, false)
  | some next =>
    let current := c.cursor
    let bytes := byteLength (c.suffix.take (next - current))
    let detached := c.journal.detachSuffix next
    ({ c with
        journal := (detached.1.retainPrefix current).appendSuffix detached.2 current
        suffix := dropBytes bytes c.suffix
        suffixSegments := (splitSegments c.suffixSegments bytes).2 }.refreshReading,
      true)

def finalizePendingN (c : LocalKanaComposer) : LocalKanaComposer × Bool :=
  if c.pending ≠ ['n'] then (c, false)
  else
    ((c.withDetached fun c => { c with pending := [] }.appendInputUnit ['ん'] .kana ['n']).refreshReading, true)

def preserveLastLiteralOriginal (c : LocalKanaComposer) (original : Char) : LocalKanaComposer :=
  if c.pending.isEmpty then
    { c with journal := c.journal.replaceSingleUnitOriginal c.cursor original }
  else c

def retainPrefix (c : LocalKanaComposer) (front : Text) : LocalKanaComposer × Bool :=
  if !front.isPrefixOf c.reading then (c, false)
  else
    let c := if c.suffix.isEmpty then c else (c.setCursor c.reading.length).1
    if byteLength front ≤ byteLength c.stable then
      ({ c.truncateStable (byteLength front) with pending := [] }.refreshReading, true)
    else
      -- A converted interval has literal reading: deleted roman suffixes must not reappear or
      -- combine with the next composition's input.
      let rest := dropBytes (byteLength c.stable) front
      (({ c with pending := [] }.appendInputUnit rest .direct rest).refreshReading, true)

/-- Whether an offset starts a grapheme or is an end of the text. -/
def isGraphemeBoundary (segmentation : Segmentation) (text : Text) (index : Nat) : Bool :=
  index == 0 || index == byteLength text || (segmentation.graphemeStarts text).contains index

def stableSuffixSegments (segmentation : Segmentation) (c : LocalKanaComposer) (suffixLen : Nat) :
    Option (List ReplaySegment) :=
  if suffixLen = 0 then some []
  else if byteLength c.stable < suffixLen then none
  else
    let start := byteLength c.stable - suffixLen
    if !isCharBoundary c.stable start || !isGraphemeBoundary segmentation c.stable start then none
    else
      match suffixSegmentsFrom start 0 [] c.stableSegments with
      | none => none
      | some (retained, offset) => if offset = byteLength c.stable then some retained else none

def retainedStableSuffix (segmentation : Segmentation) (c : LocalKanaComposer) (suffix : Text) :
    Option (Text × List ReplaySegment) :=
  if suffix.isEmpty || !suffix.isSuffixOf c.reading then none
  else if !c.pending.isSuffixOf suffix then none
  else
    -- Without pending input this is the whole suffix.
    let stableSuffix := suffix.take (suffix.length - c.pending.length)
    if !stableSuffix.isSuffixOf c.stable then none
    else
      (c.stableSuffixSegments segmentation (byteLength stableSuffix)).map fun segments =>
        (stableSuffix, segments)

/-- Whether a suffix can be retained without changing the composition. -/
def canRetainSuffix (segmentation : Segmentation) (c : LocalKanaComposer) (suffix : Text) : Bool :=
  if !c.suffix.isEmpty then
    !suffix.isEmpty && suffix.isSuffixOf c.reading
      && isGraphemeBoundary segmentation c.reading (byteLength c.reading - byteLength suffix)
  else (c.retainedStableSuffix segmentation suffix).isSome

/-- The retention itself, once the cursor is at the end. -/
def retainAtEnd (segmentation : Segmentation) (c : LocalKanaComposer) (suffix : Text) :
    LocalKanaComposer × Bool :=
  match c.retainedStableSuffix segmentation suffix with
  | none => (c, false)
  | some (stableSuffix, stableSegments) =>
    let removed := byteLength c.stable - byteLength stableSuffix
    ({ c with
        journal := c.journal.removePrefix (takeBytes removed c.stable).length
        automaticLiterals := (c.automaticLiterals.filter fun offset => removed ≤ offset).map (· - removed)
        stable := stableSuffix
        stableSegments := stableSegments }.refreshReading,
      true)

/-- Retains a visible suffix after a prefix commit without resolving an unfinished roman tail. -/
def retainSuffix (segmentation : Segmentation) (c : LocalKanaComposer) (suffix : Text) :
    LocalKanaComposer × Bool :=
  if !c.suffix.isEmpty then
    if !c.canRetainSuffix segmentation suffix then (c, false)
    else (c.setCursor c.reading.length).1.retainAtEnd segmentation suffix
  else c.retainAtEnd segmentation suffix

def adoptConversionReading (c : LocalKanaComposer) (reading : Text) : LocalKanaComposer × Bool :=
  if c.reading = reading then (c, true)
  else
    let normalized := normalizeReading c.reading
    let resolvedN := if c.suffix.isEmpty && c.pending = ['n'] then some (normalized.dropLast ++ ['ん']) else none
    if normalized ≠ reading && resolvedN ≠ some reading then (c, false)
    else
      let stop := c.reading.length
      let c := ((c.setCursor 0).1.setCursor stop).1
      ((({ c with stable := [], stableSegments := [] }.appendStable reading .direct).refreshReading), true)

def originalInput (c : LocalKanaComposer) (start stop : Nat) : Option Text :=
  if c.pending.isEmpty then c.journal.original start stop
  else
    let detached := c.journal.detachSuffix c.cursor
    let journal := detached.1.append c.stable.length c.cursor c.pending
    (journal.appendSuffix detached.2 c.cursor).original start stop

/-- Every character of a styled text pushed in order. -/
def pushAll (c : LocalKanaComposer) (text : StyledText) : LocalKanaComposer :=
  text.foldl (fun c typed => c.push typed.1 typed.2) c

/-- A fresh composer after the segments were pushed into it character by character. -/
def replayed (segments : List ReplaySegment) : LocalKanaComposer :=
  segments.foldl (fun c segment => segment.text.foldl (fun c ch => c.push ch segment.style) c) empty

end LocalKanaComposer

end Nospacekey
