import Nospacekey.Ipc.Clause
import Mathlib.Algebra.Ring.Nat

/-! The table of the user's corrections, newest first, and its snapshots for the disk. -/

namespace Nospacekey

structure CorrectionEntry where
  reading : Text
  surface : Text
  deriving DecidableEq, Repr

/-- Katakana are folded into hiragana. -/
def normalizeKana (text : Text) : Text :=
  text.map fun ch => if 0x30A1 ≤ ch.toNat ∧ ch.toNat ≤ 0x30F6 then Char.ofNat (ch.toNat - 0x60) else ch

/-- The table of one learning directory. It has an identity, as it is shared with the jobs that write it. -/
structure CorrectionStore (δ : Type) where
  id : Nat
  directory : Option δ
  /-- The newest entry comes first; looking an entry up does not move it. -/
  entries : List CorrectionEntry
  dirty : Bool
  generation : Nat
  loaded : Bool
  deriving DecidableEq, Repr

/-- The immutable bytes of a table, with the generation they were captured in. -/
structure PersistenceSnapshot (δ : Type) where
  generation : Nat
  url : δ
  data : List CorrectionEntry
  deriving DecidableEq, Repr

namespace CorrectionStore

variable {δ : Type}

def maxEntries : Nat := 1000

/-- A table of a directory, whose file is read when the table is first used. -/
def new (id : Nat) (directory : Option δ) : CorrectionStore δ where
  id := id
  directory := directory
  entries := []
  dirty := false
  generation := 0
  loaded := false

/-- A key is a reading of hiragana only. -/
def normalizedKey (reading : Text) : Option Text :=
  let key := normalizeKana reading
  if key.isEmpty then none
  else if key.all fun ch => (0x3041 ≤ ch.toNat && ch.toNat ≤ 0x3096) || ch.toNat = 0x30FC then some key
  else none

/-- The entries that a file is read as; a missing or damaged one is empty. -/
def contents (file : Option (List CorrectionEntry)) : List CorrectionEntry := (file.getD []).take maxEntries

/-- The file of a table's directory. -/
def file (files : δ → Option (List CorrectionEntry)) (store : CorrectionStore δ) : Option (List CorrectionEntry) :=
  store.directory.bind files

def loadIfNeeded (store : CorrectionStore δ) (files : δ → Option (List CorrectionEntry)) : CorrectionStore δ :=
  if store.loaded then store else { store with loaded := true, entries := contents (store.file files) }

/-- Changed entries have not been written, under a new generation that may wrap around. -/
def changed (store : CorrectionStore δ) (entries : List CorrectionEntry) : CorrectionStore δ :=
  { store with entries := entries, dirty := true, generation := (store.generation + 1) % 2 ^ 64 }

def record (store : CorrectionStore δ) (files : δ → Option (List CorrectionEntry)) (reading surface : Text) :
    CorrectionStore δ :=
  match normalizedKey reading with
  | none => store
  | some key =>
    if surface.isEmpty then store
    else
      let store := store.loadIfNeeded files
      store.changed ((⟨key, surface⟩ :: store.entries.filter fun entry => entry.reading ≠ key).take maxEntries)

/-- Removes an entry, and tells whether there was one. -/
def remove (store : CorrectionStore δ) (files : δ → Option (List CorrectionEntry)) (reading : Text) :
    CorrectionStore δ × Bool :=
  match normalizedKey reading with
  | none => (store, false)
  | some key =>
    let store := store.loadIfNeeded files
    let entries := store.entries.filter fun entry => entry.reading ≠ key
    if entries.length = store.entries.length then (store, false) else (store.changed entries, true)

def lookup (store : CorrectionStore δ) (files : δ → Option (List CorrectionEntry)) (reading : Text) :
    CorrectionStore δ × Option Text :=
  match normalizedKey reading with
  | none => (store, none)
  | some key =>
    let store := store.loadIfNeeded files
    (store, (store.entries.find? fun entry => entry.reading = key).map (·.surface))

/-- Forgets the entries in memory only. -/
def clearMemory (store : CorrectionStore δ) : CorrectionStore δ :=
  { store with entries := [], dirty := false, loaded := true }

def persistenceSnapshot (store : CorrectionStore δ) : Option (PersistenceSnapshot δ) :=
  if store.dirty then store.directory.map fun url => ⟨store.generation, url, store.entries⟩ else none

def acknowledgePersistence (store : CorrectionStore δ) (snapshot : PersistenceSnapshot δ) : CorrectionStore δ :=
  if store.generation = snapshot.generation then { store with dirty := false } else store

end CorrectionStore

/-- A change that a commit or a reconversion makes to the table. -/
inductive CorrectionEdit where
  | record (reading surface : Text)
  | remove (reading : Text)
  deriving DecidableEq, Repr

namespace CorrectionEdit

variable {δ : Type}

def isRecord : CorrectionEdit → Bool
  | .record .. => true
  | _ => false

/-- A change, and whether the table has to be written for it. -/
def apply (files : δ → Option (List CorrectionEntry)) (state : CorrectionStore δ × Bool) :
    CorrectionEdit → CorrectionStore δ × Bool
  | .record reading surface => (state.1.record files reading surface, true)
  | .remove reading =>
    let removed := state.1.remove files reading
    (removed.1, removed.2 || state.2)

/-- The changes of one critical section, and whether the table has to be written for them. -/
def applyAll (files : δ → Option (List CorrectionEntry)) (store : CorrectionStore δ) (edits : List CorrectionEdit) :
    CorrectionStore δ × Bool := edits.foldl (apply files) (store, false)

end CorrectionEdit

end Nospacekey
