import Nospacekey.Ipc.Clause

/-! The original input, available only at complete composer-unit boundaries. -/

namespace Nospacekey

structure InputUnit where
  start : Nat
  stop : Nat
  original : Text
  deriving DecidableEq, Repr

structure InputJournal where
  units : List InputUnit
  deriving DecidableEq, Repr

namespace InputJournal

/-- A journal without units. -/
def empty : InputJournal := ⟨[]⟩

/-- The units of a list with the first one that ends at a position and is one scalar long changed. -/
def replaceSingleUnit (stop : Nat) (original : Char) : List InputUnit → List InputUnit
  | [] => []
  | unit :: rest =>
    if unit.stop = stop ∧ unit.stop - unit.start = 1 then { unit with original := [original] } :: rest
    else unit :: replaceSingleUnit stop original rest

def replaceSingleUnitOriginal (journal : InputJournal) (stop : Nat) (original : Char) : InputJournal :=
  ⟨replaceSingleUnit stop original journal.units⟩

/-- The leading units that end at or before a position. -/
def retainPrefix (journal : InputJournal) (stop : Nat) : InputJournal :=
  ⟨journal.units.takeWhile fun unit => unit.stop ≤ stop⟩

def append (journal : InputJournal) (start stop : Nat) (original : Text) : InputJournal :=
  if stop ≤ start || original.isEmpty then journal
  else ⟨(journal.retainPrefix start).units ++ [{ start := start, stop := stop, original := original }]⟩

/-- The units from one position on, as long as they join up to another one. -/
def originalFrom (stop : Nat) : Nat → Text → List InputUnit → Option Text
  | _, _, [] => none
  | next, original, unit :: rest =>
    if unit.start ≠ next || stop < unit.stop then none
    else if unit.stop = stop then some (original ++ unit.original)
    else originalFrom stop unit.stop (original ++ unit.original) rest

/-- A boundary through e.g. kyo → きょ has no original-input substring. -/
def original (journal : InputJournal) (start stop : Nat) : Option Text :=
  if stop ≤ start then none
  else originalFrom stop start [] (journal.units.dropWhile fun unit => unit.stop ≤ start)

def removePrefix (journal : InputJournal) (count : Nat) : InputJournal :=
  ⟨(journal.units.filter fun unit => count ≤ unit.start).map fun unit =>
    { unit with start := unit.start - count, stop := unit.stop - count }⟩

/-- Before an edit at a position, separate later complete units. A unit crossing the edit point
cannot retain its original-input mapping. -/
def detachSuffix (journal : InputJournal) (start : Nat) : InputJournal × InputJournal :=
  let before := journal.units.takeWhile fun unit => unit.start < start
  let after := journal.units.dropWhile fun unit => unit.start < start
  (retainPrefix ⟨before⟩ start, removePrefix ⟨after⟩ start)

/-- Units whose positions would not fit are not appended. -/
def appendSuffix (journal suffix : InputJournal) (start : Nat) : InputJournal :=
  if suffix.units.getLast?.any fun unit => 2 ^ 32 ≤ unit.stop + start then journal
  else ⟨journal.units ++ suffix.units.map fun unit =>
    { unit with start := unit.start + start, stop := unit.stop + start }⟩

end InputJournal

end Nospacekey
