import PadRelay.Proofs.Toml.Rows
import PadRelay.TimingLog.Text

/-!
This module contains the proof that timing logs survive being written to a file: a log can be written if
and only if all its points in time fit the integers of TOML, and then it is read back as it was.
-/

namespace PadRelay

namespace TimingEvent

theorem ofName?_name (e : TimingEvent) : ofName? e.name = some e := by
  cases e <;> decide +kernel

theorem isPlainText_name (e : TimingEvent) : Toml.IsPlainText e.name := by
  cases e <;> decide +kernel

end TimingEvent

namespace TimingEntry

open Toml

/-- Whether the point in time is an integer of TOML. -/
def Fits (e : TimingEntry) : Prop :=
  e.nanos.toNat ≤ Int64.maxValue.toInt

/-- The settings of an entry. -/
def row {e : TimingEntry} (h : e.Fits) : Row :=
  [{ key := "event"
     value := .text e.event.name
     written := '"' :: (e.event.name.toList ++ ['"'])
     isBareKey := by decide +kernel
     isWritten := isWritten_text e.event.isPlainText_name },
   { key := "nanos"
     value := .int e.nanos.toNat
     written := Nat.toDigits 10 e.nanos.toNat
     isBareKey := by decide +kernel
     isWritten := isWritten_int h }]

variable {e : TimingEntry}

theorem toToml?_of_fits (h : e.Fits)
    : ∃ block, e.toToml? = some block ∧ block.toList = (row h).text "entries" := by
  refine ⟨"[[entries]]\nevent = \"" ++ e.event.name ++ "\"\nnanos = " ++ e.nanos.toNat.repr ++ "\n",
    if_pos h, ?_⟩
  simp [row, Row.text, Row.header, Setting.text, Nat.repr_eq_ofList_toDigits]

theorem fits_of_toToml? {block : String} (h : e.toToml? = some block) : e.Fits := by
  unfold toToml? at h
  split at h
  . assumption
  . simp at h

theorem ofDocument?_row (h : e.Fits) : ofDocument? .toml (row h).document = some e := by
  have hnanos : (Document.int e.nanos.toNat).int? 0 (UInt64.size - 1) = some (e.nanos.toNat : Int) := by
    have hlt := e.nanos.toNat_lt
    rw [Document.int?, if_pos]
    exact ⟨Int.natCast_nonneg _, by simp [UInt64.size]; omega⟩
  have hfields : DocumentRules.toml.fields? ["event", "nanos"] (row h).document
      = some [.text e.event.name, .int e.nanos.toNat] := by
    simp [row, Row.document, DocumentRules.fields?, valueOf?, List.lookup_cons]
  have hevent : (Document.text e.event.name).variant? DocumentRules.toml.isUnit = some e.event.name :=
    rfl
  simp only [ofDocument?, hfields, hevent, Option.bind_some, TimingEvent.ofName?_name, hnanos,
    Option.bind_eq_bind, Int.toNat_natCast, UInt64.ofNat_toNat]
  rfl

end TimingEntry

namespace TimingLog

open Toml

/-- Entries that fit are written as rows from which they are read back. -/
theorem exists_rows {entries : List TimingEntry} (h : ∀ e ∈ entries, e.Fits)
    : ∃ blocks, ∃ rows : List Row, entries.mapM TimingEntry.toToml? = some blocks ∧
        blocks.map String.toList = rows.map (Row.text "entries") ∧
        (∀ row ∈ rows, (row.map (·.key)).Nodup) ∧
        (rows.map Row.document).mapM (TimingEntry.ofDocument? .toml) = some entries := by
  induction entries with
  | nil => exact ⟨[], [], rfl, rfl, by simp, rfl⟩
  | cons e entries ih =>
    have he := h e List.mem_cons_self
    rcases TimingEntry.toToml?_of_fits he with ⟨block, hblock, htext⟩
    rcases ih fun e' he' => h e' (List.mem_cons_of_mem _ he') with
      ⟨blocks, rows, hblocks, htexts, hkeys, hread⟩
    refine ⟨block :: blocks, TimingEntry.row he :: rows, ?_, ?_, ?_, ?_⟩
    . simp [List.mapM_cons, hblock, hblocks]
    . simp [htext, htexts]
    . intro row hrow
      rcases List.mem_cons.1 hrow with rfl | hrow
      . simp [TimingEntry.row]
      . exact hkeys row hrow
    . simp [List.mapM_cons, TimingEntry.ofDocument?_row he, hread]

theorem fits_of_mapM {entries : List TimingEntry} {blocks : List String}
    (h : entries.mapM TimingEntry.toToml? = some blocks) : ∀ e ∈ entries, e.Fits := by
  induction entries generalizing blocks with
  | nil => simp
  | cons e entries ih =>
    rw [List.mapM_cons] at h
    rcases Option.bind_eq_some_iff.1 h with ⟨block, hblock, h⟩
    rcases Option.bind_eq_some_iff.1 h with ⟨blocks', hblocks, _⟩
    intro e' he'
    rcases List.mem_cons.1 he' with rfl | he'
    . exact TimingEntry.fits_of_toToml? hblock
    . exact ih hblocks e' he'

theorem fits_of_toToml? {log : TimingLog} {text : String} (h : log.toToml? = some text)
    : ∀ e ∈ log.entries, e.Fits := by
  unfold toToml? at h
  split at h
  . next heq => simp [heq]
  . rcases Option.map_eq_some_iff.1 h with ⟨blocks, hblocks, _⟩
    exact fits_of_mapM hblocks

/-- A log without entries is written as an empty list, since it has no row to be written. -/
theorem ofToml?_toToml?_nil : ofToml? "entries = []\n" = some ⟨[]⟩ := by
  decide +kernel

theorem ofToml?_of_fits {log : TimingLog} (h : ∀ e ∈ log.entries, e.Fits)
    : ∃ text, log.toToml? = some text ∧ ofToml? text = some log := by
  rcases log with ⟨entries⟩
  cases entries with
  | nil => exact ⟨_, rfl, ofToml?_toToml?_nil⟩
  | cons e entries =>
    rcases exists_rows h with ⟨blocks, rows, hblocks, htexts, hkeys, hread⟩
    refine ⟨"\n".intercalate blocks, by simp [toToml?, hblocks], ?_⟩
    have hrows : rows ≠ [] := by
      rintro rfl
      simp at hread
    have htext : ("\n".intercalate blocks).toList
        = ['\n'].intercalate (rows.map (Row.text "entries")) := by
      rw [String.toList_intercalate, htexts]
      rfl
    have hkey : IsBareKey "entries" := by decide +kernel
    have hfields : DocumentRules.toml.fields? ["entries"]
        (.table [("entries", .list (rows.map Row.document))]) = some [.list (rows.map Row.document)] :=
      rfl
    rw [ofToml?, parse_rows hkey hrows hkeys htext]
    simp [ofDocument?, hfields, hread]

/--
A log can be written if and only if no point in time is beyond the largest integer of TOML, and what
was written is read as the same entries in the same order.
-/
theorem toml_lossless (log : TimingLog)
    : ((∃ text, log.toToml? = some text) ↔
          ∀ e ∈ log.entries, e.nanos.toNat ≤ Int64.maxValue.toInt) ∧
        ∀ text, log.toToml? = some text → ofToml? text = some log := by
  refine ⟨⟨?_, ?_⟩, ?_⟩
  . rintro ⟨text, htext⟩
    exact fits_of_toToml? htext
  . intro h
    rcases ofToml?_of_fits h with ⟨text, htext, _⟩
    exact ⟨text, htext⟩
  . intro text htext
    rcases ofToml?_of_fits (fits_of_toToml? htext) with ⟨text', htext', hread⟩
    rw [htext, Option.some.injEq] at htext'
    rw [htext']
    exact hread

/-- The last moment that can be written, and the one after it. -/
theorem toml_lossless_bound
    : let log : TimingLog := ⟨[⟨.readyWriteStart, 0⟩, ⟨.keyReadFinish, 0x7FFFFFFFFFFFFFFF⟩]⟩
      let text :=
        "[[entries]]\nevent = \"client_ready_write_start\"\nnanos = 0\n\n" ++
          "[[entries]]\nevent = \"key_state_read_finish\"\nnanos = 9223372036854775807\n"
      log.toToml? = some text ∧ ofToml? text = some log ∧
        ¬∃ text', (log.record .remoteRequested 0x8000000000000000).toToml? = some text' := by
  intro log text
  have htext : log.toToml? = some text := by decide +kernel
  refine ⟨htext, (toml_lossless log).2 text htext, ?_⟩
  rw [(toml_lossless (log.record .remoteRequested 0x8000000000000000)).1]
  decide +kernel

end TimingLog
end PadRelay
