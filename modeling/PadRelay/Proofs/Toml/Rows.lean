import PadRelay.Proofs.Toml.Line

/-!
This module contains the theory of TOML files that hold rows: tables with the same header of the form
`[[key]]`, which are separated by blank lines and each of which sets some keys. Such a file is read as
the list of its rows, in their order.
-/

namespace PadRelay.Toml

/-- A line that sets a key. -/
structure Setting where
  key : String
  value : Document
  /-- How the value is written. -/
  written : List Char
  isBareKey : IsBareKey key
  isWritten : IsWritten value written

namespace Setting

def text (s : Setting) : List Char :=
  s.key.toList ++ ' ' :: '=' :: ' ' :: s.written

def line (s : Setting) : Line :=
  .set [] s.key s.value

def entry (s : Setting) : String × Node :=
  (s.key, .value s.value)

theorem readStatement_text (s : Setting) (rest : List Char)
    : readStatement (s.text ++ '\n' :: rest) = some (s.line, '\n' :: rest) := by
  rw [text, List.append_assoc]
  exact readStatement_set s.isBareKey s.isWritten rest

end Setting

abbrev Row := List Setting

namespace Row

def header (key : String) : List Char :=
  '[' :: '[' :: (key.toList ++ [']', ']'])

def text (key : String) (row : Row) : List Char :=
  header key ++ '\n' :: row.flatMap fun s => s.text ++ ['\n']

def lines (key : String) (row : Row) : List Line :=
  .element [] key :: row.map Setting.line

def document (row : Row) : Document :=
  .table (row.map fun s => (s.key, s.value))

theorem readStatement_header {key : String} (h : IsBareKey key) (rest : List Char)
    : readStatement (header key ++ '\n' :: rest) = some (.element [] key, '\n' :: rest) := by
  have := readStatement_element h rest
  simpa [header] using this

end Row

section Lines

/-- The characters are those of the lines. -/
def Reads (cs : List Char) (lines : List Line) : Prop :=
  ∀ fuel, cs.length < fuel → readLines fuel cs = some lines

variable {cs rest : List Char} {line : Line} {lines : List Line}

theorem reads_nil : Reads [] [] := by
  intro fuel hfuel
  cases fuel with
  | zero => simp at hfuel
  | succ fuel => rfl

theorem Reads.cons (hrest : Reads rest lines)
    (hline : readStatement (cs ++ '\n' :: rest) = some (line, '\n' :: rest))
    : Reads (cs ++ '\n' :: rest) (line :: lines) := by
  intro fuel hfuel
  cases fuel with
  | zero => simp at hfuel
  | succ fuel =>
    have hlength : rest.length < fuel := by
      simp at hfuel
      omega
    have hend : endLine ('\n' :: rest) = some rest := rfl
    rw [readLines, hline]
    . simp [hend, hrest fuel hlength]
    . simp

theorem Reads.blank (hrest : Reads rest lines) : Reads ('\n' :: rest) (.blank :: lines) :=
  @Reads.cons [] rest .blank lines hrest rfl

theorem Reads.settings (hrest : Reads rest lines) (row : Row)
    : Reads ((row.flatMap fun s => s.text ++ ['\n']) ++ rest) (row.map Setting.line ++ lines) := by
  induction row with
  | nil => exact hrest
  | cons s row ih =>
    have := ih.cons (s.readStatement_text _)
    simpa using this

theorem Reads.row {key : String} (hkey : IsBareKey key) (hrest : Reads rest lines) (row : Row)
    : Reads (row.text key ++ rest) (row.lines key ++ lines) := by
  have := (hrest.settings row).cons (Row.readStatement_header hkey _)
  simpa [Row.text, Row.lines] using this

theorem reads_rows {key : String} (hkey : IsBareKey key) (rows : List Row)
    : Reads (['\n'].intercalate (rows.map (Row.text key)))
        ([Line.blank].intercalate (rows.map (Row.lines key))) := by
  induction rows with
  | nil => exact reads_nil
  | cons row rows ih =>
    cases rows with
    | nil => simpa using reads_nil.row hkey row
    | cons row' rows =>
      have := ih.blank.row hkey row
      simpa [List.intercalate_cons_cons] using this

end Lines

section Tables

theorem alterEntry_of_not_mem {key : String} {f : Option Node → Option Node} {entries : Entries}
    (h : key ∉ entries.map (·.1))
    : alterEntry key f entries = (f none).map fun n => entries ++ [(key, n)] := by
  induction entries with
  | nil => rfl
  | cons e entries ih =>
    rw [List.map_cons, List.mem_cons, not_or] at h
    rw [alterEntry, if_neg (Ne.symm h.1), ih h.2, Option.map_map]
    rfl

/-- The root of a file that has only tables with one header so far. -/
def rootOf (key : String) (tables : List Entries) : Entries :=
  if tables = [] then [] else [(key, .tables tables)]

variable (key : String) (tables : List Entries) (current : List String)

theorem add_element
    : Builder.add { root := rootOf key tables, current := current } (.element [] key)
        =
      some { root := rootOf key (tables ++ [[]]), current := [key] } := by
  cases tables with
  | nil => simp [rootOf, Builder.add, openElement, alterTable, alterEntry]
  | cons t ts => simp [rootOf, Builder.add, openElement, alterTable, alterEntry]

theorem add_line {entries : Entries} {s : Setting} (h : s.key ∉ entries.map (·.1))
    : Builder.add { root := rootOf key (tables ++ [entries]), current := [key] } s.line
        =
      some { root := rootOf key (tables ++ [entries ++ [s.entry]]), current := [key] } := by
  simp [rootOf, Builder.add, Setting.line, Setting.entry, addKey, alterTable, alterEntry,
    alterEntry_of_not_mem h]

theorem add_lines (entries : Entries) (row : Row)
    (h : (entries.map (·.1) ++ row.map (·.key)).Nodup)
    : (row.map Setting.line).foldlM Builder.add
          { root := rootOf key (tables ++ [entries]), current := [key] }
        =
      some
        { root := rootOf key (tables ++ [entries ++ row.map Setting.entry]), current := [key] } := by
  induction row generalizing entries with
  | nil => simp
  | cons s row ih =>
    have hs : s.key ∉ entries.map (·.1) := by
      intro hmem
      exact (List.nodup_append.1 h).2.2 s.key hmem s.key (by simp) rfl
    have hrow := ih (entries ++ [s.entry]) (by simpa [Setting.entry] using h)
    rw [List.map_cons, List.foldlM_cons, add_line key tables hs]
    simpa using hrow

theorem add_row (row : Row) (h : (row.map (·.key)).Nodup)
    : (row.lines key).foldlM Builder.add { root := rootOf key tables, current := current }
        =
      some { root := rootOf key (tables ++ [row.map Setting.entry]), current := [key] } := by
  have hlines := add_lines key tables [] row (by simpa using h)
  rw [Row.lines, List.foldlM_cons, add_element]
  simpa using hlines

theorem add_rows (rows : List Row) (h : ∀ row ∈ rows, (row.map (·.key)).Nodup)
    : ∃ current',
        ([Line.blank].intercalate (rows.map (Row.lines key))).foldlM Builder.add
            { root := rootOf key tables, current := current }
          =
        some
          { root := rootOf key (tables ++ rows.map (·.map Setting.entry)), current := current' } := by
  induction rows generalizing tables current with
  | nil => exact ⟨current, by simp⟩
  | cons row rows ih =>
    have hrow := add_row key tables current row (h row List.mem_cons_self)
    cases rows with
    | nil => exact ⟨[key], by simpa using hrow⟩
    | cons row' rows =>
      rcases ih (tables ++ [row.map Setting.entry]) [key]
        (fun row hmem => h row (List.mem_cons_of_mem _ hmem)) with ⟨current', hrows⟩
      refine ⟨current', ?_⟩
      rw [List.map_cons, List.map_cons, List.intercalate_cons_cons, List.foldlM_append,
        List.foldlM_append, hrow]
      simpa [Builder.add] using hrows

end Tables

section Documents

theorem documentsOf_entries (row : Row)
    : documentsOf (row.map Setting.entry) = row.map fun s => (s.key, s.value) := by
  induction row with
  | nil => rfl
  | cons s row ih => simp [documentsOf, Setting.entry, Node.toDocument, ← ih]

theorem elementsOf_rows (rows : List Row)
    : elementsOf (rows.map (·.map Setting.entry)) = rows.map Row.document := by
  induction rows with
  | nil => rfl
  | cons row rows ih => simp [elementsOf, Row.document, documentsOf_entries, ← ih]

theorem parse_of_reads {text : String} {lines : List Line} (h : Reads text.toList lines)
    (hmark : text.toList.head? ≠ some '\ufeff') : parse text = ofLines lines := by
  have hdrop : dropByteOrderMark text.toList = text.toList := by
    unfold dropByteOrderMark
    split
    . next heq => simp [heq] at hmark
    . rfl
  rw [parse, hdrop, h _ (Nat.lt_succ_self _)]
  rfl

/-- A file of rows is read as a table whose only key has the list of the rows. -/
theorem parse_rows {key : String} (hkey : IsBareKey key) {rows : List Row} (hrows : rows ≠ [])
    (hkeys : ∀ row ∈ rows, (row.map (·.key)).Nodup) {text : String}
    (htext : text.toList = ['\n'].intercalate (rows.map (Row.text key)))
    : parse text = some (.table [(key, .list (rows.map Row.document))]) := by
  have hreads := reads_rows hkey rows
  rw [← htext] at hreads
  rcases add_rows key [] [] rows hkeys with ⟨current', hbuild⟩
  have hmark : text.toList.head? ≠ some '\ufeff' := by
    rw [htext]
    cases rows with
    | nil => exact absurd rfl hrows
    | cons row rows => cases rows <;> simp [List.intercalate_cons_cons, Row.text, Row.header]
  rw [parse_of_reads hreads hmark, ofLines]
  have hroot : ({} : Builder) = { root := rootOf key [], current := [] } := rfl
  rw [hroot, hbuild]
  simp [rootOf, hrows, documentsOf, Node.toDocument, elementsOf_rows]

end Documents

end PadRelay.Toml
