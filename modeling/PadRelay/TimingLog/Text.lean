import PadRelay.Document
import PadRelay.TimingLog
import PadRelay.Toml.File

/-!
This module contains timing logs in files: how a log is written and which documents are read as one.
-/

namespace PadRelay

structure DocumentRules where
  /-- Whether a list may have more elements than its reader asks for. -/
  allowsExtra : Bool
  /-- What stands for the contents of a variant that has none. -/
  isUnit : Document → Bool

namespace DocumentRules

def toml : DocumentRules where
  allowsExtra := true
  isUnit := Document.isEmptyGroup

def json : DocumentRules where
  allowsExtra := false
  isUnit
    | .null => true
    | _ => false

/--
The fields of a record with the given names. They are either named by the keys of a table or stand in a
list in this order.
-/
def fields? (rules : DocumentRules) (names : List String) : Document → Option (List Document)
  | .table entries => names.mapM fun name => valueOf? name entries
  | .list l =>
    if l.length = names.length ∨ (rules.allowsExtra ∧ names.length ≤ l.length) then
      some (l.take names.length)
    else
      none
  | _ => none

end DocumentRules

namespace TimingEntry

def ofDocument? (rules : DocumentRules) (d : Document) : Option TimingEntry :=
  match rules.fields? ["event", "nanos"] d with
  | some [event, nanos] => do
    let event ← (event.variant? rules.isUnit).bind TimingEvent.ofName?
    let nanos ← nanos.int? 0 (UInt64.size - 1)
    return ⟨event, UInt64.ofNat nanos.toNat⟩
  | _ => none

def toToml? (e : TimingEntry) : Option String :=
  if e.nanos.toNat ≤ Int64.maxValue.toInt then
    some s!"[[entries]]\nevent = \"{e.event.name}\"\nnanos = {e.nanos.toNat}\n"
  else
    none

end TimingEntry

namespace TimingLog

def ofDocument? (rules : DocumentRules) (d : Document) : Option TimingLog :=
  match rules.fields? ["entries"] d with
  | some [.list l] => (l.mapM (TimingEntry.ofDocument? rules)).map TimingLog.mk
  | _ => none

def ofToml? (text : String) : Option TimingLog :=
  (Toml.parse text).bind (ofDocument? .toml)

/--
The text of a log as a TOML file. A log without entries takes a form of its own.
-/
def toToml? (log : TimingLog) : Option String :=
  match log.entries with
  | [] => some "entries = []\n"
  | entries => (entries.mapM TimingEntry.toToml?).map fun blocks => "\n".intercalate blocks

end TimingLog
end PadRelay
