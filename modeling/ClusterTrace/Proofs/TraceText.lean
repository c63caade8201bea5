import ClusterTrace.Number.Digits
import ClusterTrace.Trace.Rows
import ClusterTrace.Proofs.DelimitedScan
import ClusterTrace.Proofs.Numerals
import ClusterTrace.Proofs.TextCuts

/-!
# Reading back the text of a trace

Rows are written as lines `tick,kind,params…` behind a header, each field as it is or between
quotes. Reading the file gives the rows back in order, with the numbers of the lines they begin on.
-/

namespace ClusterTrace

open Delimited Utf8

/-! ## What is written -/

/-- The text is that of a tick: a run of digits for a number of 64 bits. -/
structure TickText (text : List Char) : Prop where
  nonempty : text ≠ []
  digits : ∀ c ∈ text, c.isDigit = true
  bound : Nat.ofDigitChars 10 text 0 < Nat.pow 2 64

instance (text : List Char) : Decidable (TickText text) :=
  decidable_of_iff (text ≠ [] ∧ text.all Char.isDigit = true ∧
      Nat.ofDigitChars 10 text 0 < Nat.pow 2 64)
    ⟨fun h => ⟨h.1, List.all_eq_true.mp h.2.1, h.2.2⟩,
      fun h => ⟨h.nonempty, List.all_eq_true.mpr h.digits, h.bound⟩⟩

/-- A line of the header. What stands before its first comma is no tick. -/
structure HeaderLine (line : String) : Prop where
  nonempty : line ≠ ""
  plain : ∀ c ∈ line.toList, c ≠ '"' ∧ c ≠ '\r' ∧ c ≠ '\n' ∧ c ≠ '\uFEFF'
  noTick : ¬ TickText (Text.trim (line.toList.takeWhile (· ≠ ',')))

instance (line : String) : Decidable (HeaderLine line) :=
  decidable_of_iff (line ≠ "" ∧
      line.toList.all (fun c => c ≠ '"' ∧ c ≠ '\r' ∧ c ≠ '\n' ∧ c ≠ '\uFEFF') = true ∧
      ¬ TickText (Text.trim (line.toList.takeWhile (· ≠ ','))))
    ⟨fun h => ⟨h.1, fun c hc => of_decide_eq_true (List.all_eq_true.mp h.2.1 c hc), h.2.2⟩,
      fun h => ⟨h.nonempty, List.all_eq_true.mpr fun c hc => decide_eq_true (h.plain c hc),
        h.noTick⟩⟩

/-- The field neither begins nor ends with white space. -/
structure Unpadded (field : String) : Prop where
  first : field.toList.head?.any Text.isBlank = false
  last : field.toList.getLast?.any Text.isBlank = false

instance (field : String) : Decidable (Unpadded field) :=
  decidable_of_iff (field.toList.head?.any Text.isBlank = false ∧
      field.toList.getLast?.any Text.isBlank = false)
    ⟨fun h => ⟨h.1, h.2⟩, fun h => ⟨h.first, h.last⟩⟩

/-- A row as it is written, which does not know its line. -/
structure TraceRow where
  /-- The time of the event. -/
  tick : Nat
  /-- The name of the kind of event. -/
  kind : String
  /-- The fields after the kind. -/
  params : List String

namespace TraceRow

/-- The fields of a row. -/
def fields (row : TraceRow) : List String := decimalText row.tick :: row.kind :: row.params

/-- The event of a row on a line. -/
def event (row : TraceRow) (line : Nat) : Event := ⟨line, row.tick, row.kind, row.params⟩

/-- The row can be written so that it is read back. -/
structure Writable (row : TraceRow) : Prop where
  tick : row.tick < Nat.pow 2 64
  kind : row.kind ≠ ""
  unpadded : ∀ field ∈ row.kind :: row.params, Unpadded field

instance (row : TraceRow) : Decidable row.Writable :=
  decidable_of_iff (row.tick < Nat.pow 2 64 ∧ row.kind ≠ "" ∧
      ∀ field ∈ row.kind :: row.params, Unpadded field)
    ⟨fun h => ⟨h.1, h.2.1, h.2.2⟩, fun h => ⟨h.tick, h.kind, h.unpadded⟩⟩

end TraceRow

/-! ## Fields as they are read -/

/-- Only white space at the ends of a field is lost when it is read. -/
theorem asRead_of_unpadded {field : String} (h : Unpadded field) : asRead field = field := by
  rw [asRead, Text.trim_eq_self h.first h.last, String.ofList_toList]

theorem unpadded_decimalText (n : Nat) : Unpadded (decimalText n) := by
  have hdigit : ∀ c ∈ (decimalText n).toList, Text.isBlank c = false := by
    intro c hc
    rw [decimalText, String.toList_ofList] at hc
    exact Text.isBlank_of_isDigit (Nat.isDigit_of_mem_toDigits (by decide) (by decide) hc)
  exact ⟨Text.any_isBlank_eq_false hdigit fun _ => List.mem_of_head?,
    Text.any_isBlank_eq_false hdigit fun _ => List.mem_of_getLast?⟩

/-- A tick is read from digits alone, and only if the number has no more than 64 bits. -/
theorem readTick?_eq_some_iff {s : String} {tick : Nat} :
    readTick? s = some tick ↔ TickText s.toList ∧ Nat.ofDigitChars 10 s.toList 0 = tick := by
  rw [readTick?, numeral?_bind_fitting_eq_some_iff]
  constructor
  · rintro ⟨⟨hne, hdigits, rfl⟩, hbound⟩
    exact ⟨⟨hne, hdigits, hbound⟩, rfl⟩
  · rintro ⟨⟨hne, hdigits, hbound⟩, rfl⟩
    exact ⟨⟨hne, hdigits, rfl⟩, hbound⟩

theorem readTick?_decimalText {tick : Nat} (h : tick < Nat.pow 2 64) :
    readTick? (decimalText tick) = some tick := by
  have hvalue : Nat.ofDigitChars 10 (Nat.toDigits 10 tick) 0 = tick := Nat.ofDigitChars_ten_toDigits
  rw [readTick?_eq_some_iff, decimalText, String.toList_ofList, decimalDigits]
  refine ⟨⟨Nat.toDigits_ne_nil, fun c hc => ?_, hvalue.symm ▸ h⟩, hvalue⟩
  exact Nat.isDigit_of_mem_toDigits (by decide) (by decide) hc

/-! ## Rows -/

/-- The fields of a row that can be written are read as they are. -/
theorem asRead_fields {row : TraceRow} (h : row.Writable) : row.fields.map asRead = row.fields := by
  have hfields : ∀ field ∈ row.fields, asRead field = field := by
    intro field hfield
    rcases List.mem_cons.mp hfield with rfl | hfield
    · exact asRead_of_unpadded (unpadded_decimalText _)
    · exact asRead_of_unpadded (h.unpadded field hfield)
  rw [List.map_congr_left hfields, List.map_id']

/-- The rows of a trace are read one by one. The induction is on the rows, and each begins with a
tick, so none of them is taken for a header. -/
theorem eventsFrom_rows {rows : List TraceRow} (h : ∀ row ∈ rows, row.Writable) (line : Nat → Nat)
    (begun : Bool) (done : List Event) :
    eventsFrom begun done ((rows.map TraceRow.fields).mapIdx fun i fields =>
        .ok ⟨line i, fields.map asRead⟩) =
      .ok (done.reverse ++ rows.mapIdx fun i row => row.event (line i)) := by
  induction rows generalizing line begun done with
  | nil => exact congrArg Except.ok (List.append_nil _).symm
  | cons row rows ih =>
    have hrow := h row List.mem_cons_self
    have htick : readTick? (firstField ⟨line 0, row.fields⟩) = some row.tick :=
      readTick?_decimalText hrow.tick
    have hstarts : startsRows ⟨line 0, row.fields⟩ = true := by rw [startsRows, htick]; rfl
    have hread : readRow ⟨line 0, row.fields⟩ = .ok (row.event (line 0)) := by
      rw [readRow, htick]
      exact if_neg hrow.kind
    have hblank : isBlankRecord ⟨line 0, row.fields⟩ = false := by
      have hlength : (decide (row.fields.length = 1)) = false :=
        decide_eq_false fun h => nomatch Nat.succ.inj h
      rw [isBlankRecord, hlength, Bool.false_and]
    -- The row starts the rows by itself, so it does not matter whether they have begun.
    rw [List.map_cons, List.mapIdx_cons, asRead_fields hrow, eventsFrom, hstarts, hblank, hread]
    simp only [Bool.not_true, Bool.and_false, Bool.false_eq_true, if_false]
    have hrest := ih (fun r hr => h r (List.mem_cons_of_mem _ hr)) (fun i => line (i + 1)) true
      (row.event (line 0) :: done)
    rw [hrest, List.mapIdx_cons, List.reverse_cons, List.append_assoc]
    rfl

/-- The header of a trace is passed over. -/
theorem eventsFrom_header {header : List (Except Undecodable Record)}
    (h : ∀ x ∈ header, ∃ r, x = .ok r ∧ startsRows r = false) (done : List Event)
    (rest : List (Except Undecodable Record)) :
    eventsFrom false done (header ++ rest) = eventsFrom false done rest := by
  induction header with
  | nil => rfl
  | cons x header ih =>
    obtain ⟨r, rfl, hr⟩ := h x List.mem_cons_self
    rw [List.cons_append, eventsFrom, hr]
    exact ih fun x hx => h x (List.mem_cons_of_mem _ hx)

/-! ## The header -/

/-- A text without quotes and line ends is a record of the pieces between its commas. -/
theorem exists_pieces {text : List Char} (h : ∀ c ∈ text, c ≠ '"' ∧ c ≠ '\r' ∧ c ≠ '\n') :
    ∃ piece pieces, String.ofList text = ",".intercalate (piece :: pieces) ∧
      piece.toList = text.takeWhile (· ≠ ',') ∧
      ∀ p ∈ piece :: pieces, needsQuotes p.toList = false := by
  induction text with
  | nil =>
    refine ⟨"", [], rfl, rfl, fun p hp => ?_⟩
    rw [List.mem_singleton.mp hp]
    rfl
  | cons c text ih =>
    obtain ⟨piece, pieces, htext, hpiece, hplain⟩ := ih fun d hd => h d (List.mem_cons_of_mem _ hd)
    have hsplit : String.ofList (c :: text) = String.singleton c ++ String.ofList text :=
      String.ofList_cons
    by_cases hcomma : c = ','
    · subst hcomma
      refine ⟨"", piece :: pieces, ?_, rfl, ?_⟩
      · rw [hsplit, htext, String.intercalate_cons_cons, String.empty_append]
        rfl
      · rintro p hp
        rcases List.mem_cons.mp hp with rfl | hp
        · rfl
        · exact hplain p hp
    · refine ⟨String.singleton c ++ piece, pieces, ?_, ?_, ?_⟩
      · rw [hsplit, htext, String.intercalate_cons_append]
      · rw [String.toList_append, hpiece, List.takeWhile_cons_of_pos (by simpa using hcomma),
          String.toList_singleton, List.singleton_append]
      · rintro p hp
        rcases List.mem_cons.mp hp with rfl | hp
        · have hc := h c List.mem_cons_self
          have hfirst := needsQuotes_eq_false_iff.mp (hplain piece List.mem_cons_self)
          rw [String.toList_append, String.toList_singleton, List.singleton_append,
            needsQuotes_eq_false_iff]
          rintro d hd
          rcases List.mem_cons.mp hd with rfl | hd
          · simp [hcomma, hc]
          · exact hfirst d hd
        · exact hplain p (List.mem_cons_of_mem _ hp)

/-- A line of the header is a record without quotes in which the first field is no tick. -/
theorem HeaderLine.exists_record {line : String} (h : HeaderLine line) :
    ∃ fields, RecordText fields line ∧
      ∀ number, startsRows ⟨number, fields.map asRead⟩ = false := by
  obtain ⟨piece, pieces, htext, hpiece, hplain⟩ := exists_pieces fun c hc =>
    have hc := h.plain c hc
    ⟨hc.1, hc.2.1, hc.2.2.1⟩
  rw [String.ofList_toList] at htext
  refine ⟨piece :: pieces, ⟨piece :: pieces, ?_, htext⟩, fun number => ?_⟩
  · exact List.forall₂_same.mpr fun p hp => .bare (hplain p hp)
  · have hnone : readTick? (asRead piece) = none := by
      rw [Option.eq_none_iff_forall_ne_some]
      intro tick htick
      have := (readTick?_eq_some_iff.mp htick).1
      rw [asRead, String.toList_ofList, hpiece] at this
      exact h.noTick this
    rw [startsRows, List.map_cons, firstField]
    exact congrArg Option.isSome hnone

/-- The same of all lines of the header, one after the other. -/
theorem exists_headerFields {header : List String} (h : ∀ line ∈ header, HeaderLine line) :
    ∃ values, List.Forall₂ RecordText values header ∧
      ∀ fields ∈ values, ∀ number, startsRows ⟨number, fields.map asRead⟩ = false := by
  induction header with
  | nil => exact ⟨[], .nil, fun fields hfields => (List.not_mem_nil hfields).elim⟩
  | cons line header ih =>
    obtain ⟨fields, hfields, hstarts⟩ := (h line List.mem_cons_self).exists_record
    obtain ⟨values, hvalues, hall⟩ := ih fun l hl => h l (List.mem_cons_of_mem _ hl)
    refine ⟨fields :: values, .cons hfields hvalues, fun f hf => ?_⟩
    rcases List.mem_cons.mp hf with rfl | hf
    · exact hstarts
    · exact hall f hf

/-! ## The whole file -/

/-- The first character of a line is there and no byte order mark. -/
def Unmarked (line : String) : Prop := ∃ c, line.toList.head? = some c ∧ c ≠ '\uFEFF'

theorem Unmarked.ne_empty {line : String} (h : Unmarked line) : line ≠ "" := by
  rintro rfl
  obtain ⟨c, hc, -⟩ := h
  cases hc

theorem Unmarked.append {start : String} (h : Unmarked start) (rest : String) :
    Unmarked (start ++ rest) := by
  obtain ⟨c, hc, hne⟩ := h
  rw [Unmarked, String.toList_append, List.head?_append_of_ne_nil]
  · exact ⟨c, hc, hne⟩
  · rintro hnil
    rw [hnil] at hc
    cases hc

/-- A text that is put together begins as its first part does. -/
theorem Unmarked.intercalate {first : String} (h : Unmarked first) (sep : String)
    (rest : List String) : Unmarked (sep.intercalate (first :: rest)) := by
  cases rest with
  | nil => exact String.intercalate_singleton.symm ▸ h
  | cons next rest =>
    rw [String.intercalate_cons_cons, String.append_assoc]
    exact h.append _

/-- A line of the header cannot be mistaken for a byte order mark. -/
theorem HeaderLine.unmarked {line : String} (h : HeaderLine line) : Unmarked line := by
  cases hline : line.toList with
  | nil => exact absurd (String.toList_eq_nil_iff.mp hline) h.nonempty
  | cons c text =>
    have hc : c ∈ line.toList := hline.symm ▸ List.mem_cons_self
    exact ⟨c, hline.symm ▸ rfl, (h.plain c hc).2.2.2⟩

/-- A tick begins with a digit or a quote. -/
theorem unmarked_tick {tick : Nat} {text : String} (h : FieldText (decimalText tick) text) :
    Unmarked text := by
  cases h with
  | bare =>
    rw [Unmarked, decimalText, String.toList_ofList, decimalDigits]
    cases hdigits : Nat.toDigits 10 tick with
    | nil => exact absurd hdigits Nat.toDigits_ne_nil
    | cons c digits =>
      have hc : c.isDigit = true := Nat.isDigit_of_mem_toDigits (by decide) (by decide)
        (hdigits.symm ▸ List.mem_cons_self)
      refine ⟨c, rfl, ?_⟩
      rintro rfl
      exact absurd hc (by decide)
  | quoted => exact ⟨'"', by rw [String.toList_ofList]; rfl, by decide⟩

/-- Nor can a line of a row, which begins with a digit or a quote. -/
theorem unmarked_rows {rows : List TraceRow} {lines : List String}
    (h : List.Forall₂ (fun row line => RecordText row.fields line) rows lines) :
    ∀ line ∈ lines, Unmarked line := by
  induction h with
  | nil => exact fun line hline => (List.not_mem_nil hline).elim
  | cons hrow _ ih =>
    intro line hline
    rcases List.mem_cons.mp hline with rfl | hline
    · obtain ⟨texts, htexts, rfl⟩ := hrow
      cases htexts with
      | cons htick _ => exact (unmarked_tick htick).intercalate _ _
    · exact ih line hline

/-- So the bytes of the file are all text of its lines, none of them being skipped as a mark. -/
theorem head?_fileText {lines : List String} (h : ∀ line ∈ lines, Unmarked line) (final : Bool) :
    (fileText lines final).toList.head? ≠ some '\uFEFF' := by
  cases lines with
  | nil => cases final <;> decide
  | cons line lines =>
    obtain ⟨c, hc, hne⟩ :=
      ((h line List.mem_cons_self).intercalate "\n" lines).append (if final then "\n" else "")
    intro hmark
    exact hne (Option.some.inj (hc.symm.trans hmark))

/-- Reading the text of a trace gives back the rows written in it, in order, each with the number of
the line it begins on, whatever header stands before them and however their fields are quoted. -/
theorem readTrace_fileText {header lines : List String} {rows : List TraceRow} (final : Bool)
    (hheader : ∀ line ∈ header, HeaderLine line) (hrows : ∀ row ∈ rows, row.Writable)
    (hlines : List.Forall₂ (fun row line => RecordText row.fields line) rows lines) :
    readTrace (encode (fileText (header ++ lines) final)) =
      .ok (rows.mapIdx fun i row =>
        row.event (lineNumber (header ++ lines) (header.length + i))) := by
  obtain ⟨values, hvalues, hstarts⟩ := exists_headerFields hheader
  have hall : List.Forall₂ RecordText (values ++ rows.map TraceRow.fields) (header ++ lines) :=
    List.rel_append hvalues (List.forall₂_map_left_iff.mpr hlines)
  have hunmarked : ∀ line ∈ header ++ lines, Unmarked line := by
    intro line hline
    rcases List.mem_append.mp hline with hline | hline
    · exact (hheader line hline).unmarked
    · exact unmarked_rows hlines line hline
  rw [readTrace, records_fileText hall (fun line hline => (hunmarked line hline).ne_empty)
    (head?_fileText hunmarked final), eventsOfRecords, List.mapIdx_append, eventsFrom_header]
  · rw [eventsFrom_rows hrows fun i => lineNumber (header ++ lines) (i + values.length),
      hvalues.length_eq]
    simp only [Nat.add_comm]
    rfl
  · intro x hx
    obtain ⟨i, hi, rfl⟩ := List.mem_mapIdx.mp hx
    exact ⟨_, rfl, hstarts _ (List.getElem_mem hi) _⟩

/-- A header and rows with quoted and empty fields and a line end inside one. -/
def quotedTrace : String := fileText
  ["# trace", "tick, kind", "0,SIMULATOR_START",
    "\"15\",TASK_RELEASE,\"g,0\",,\"a \"\"b\"\"\nc\"", "15,LOG_STATS,\"1\""] false

/-- Rows are read back from a file with a header, quotes, an empty field and a field with a line
feed. The row behind that field is on the line where it begins. -/
theorem readTrace_quotedTrace : readTrace (encode quotedTrace) = .ok
    [⟨3, 0, "SIMULATOR_START", []⟩, ⟨4, 15, "TASK_RELEASE", ["g,0", "", "a \"b\"\nc"]⟩,
      ⟨6, 15, "LOG_STATS", ["1"]⟩] := by
  have hstart : RecordText (TraceRow.fields ⟨0, "SIMULATOR_START", []⟩) "0,SIMULATOR_START" :=
    ⟨["0", "SIMULATOR_START"], .cons (.bare (by decide)) (.cons (.bare (by decide)) .nil),
      by decide⟩
  have hrelease : RecordText (TraceRow.fields ⟨15, "TASK_RELEASE", ["g,0", "", "a \"b\"\nc"]⟩)
      "\"15\",TASK_RELEASE,\"g,0\",,\"a \"\"b\"\"\nc\"" :=
    ⟨["\"15\"", "TASK_RELEASE", "\"g,0\"", "", "\"a \"\"b\"\"\nc\""],
      .cons .quoted (.cons (.bare (by decide)) (.cons .quoted (.cons (.bare (by decide))
        (.cons .quoted .nil)))), by decide⟩
  have hstats : RecordText (TraceRow.fields ⟨15, "LOG_STATS", ["1"]⟩) "15,LOG_STATS,\"1\"" :=
    ⟨["15", "LOG_STATS", "\"1\""],
      .cons (.bare (by decide)) (.cons (.bare (by decide)) (.cons .quoted .nil)), by decide⟩
  have hheader : ∀ line ∈ ["# trace", "tick, kind"], HeaderLine line := by decide +kernel
  have hread := readTrace_fileText false hheader (by decide +kernel)
    (.cons hstart (.cons hrelease (.cons hstats .nil)))
  simp only [lineNumber_eq] at hread
  exact hread

end ClusterTrace
