import ClusterTrace.Proofs.TraceText
import Mathlib.Data.List.TakeWhile

/-!
# The layout of a trace

A text without quotes is its lines: each line that is not empty is a record, and its fields are the
pieces between its commas. A line of white space is a record of one empty field, which is passed
over before the rows and among them. So a trace says what its other lines say, and neither the way
in which lines end nor blank lines among them have any effect, except for the numbers of the lines.
-/

namespace ClusterTrace

open Utf8

namespace Delimited

/-! ## Lines -/

/-- The character ends a line. -/
def endsLine (c : Char) : Bool := c = '\n' || c = '\r'

/-- The lines of a text that are not empty. -/
def linesOf (text : List Char) : List (List Char) := (text.splitOnP endsLine).filter (· ≠ [])

/-- The fields of a line without quotes. -/
def lineFields (line : List Char) : List String := (line.splitOn ',').map String.ofList

theorem endsLine_eq_false_iff {c : Char} : endsLine c = false ↔ c ≠ '\n' ∧ c ≠ '\r' := by
  simp [endsLine]

/-- A text is one line, or a line and its end before another text. The induction behind it is on the
characters, with what has been read of the line in front. -/
theorem lines_induction {motive : List Char → Prop}
    (last : ∀ line, (∀ c ∈ line, endsLine c = false) → motive line)
    (next : ∀ line c rest, (∀ c ∈ line, endsLine c = false) → endsLine c = true → motive rest →
      motive (line ++ c :: rest)) (text : List Char) : motive text := by
  have hfrom : ∀ line, (∀ c ∈ line, endsLine c = false) → motive (line ++ text) := by
    induction text with
    | nil =>
      intro line hline
      rw [List.append_nil]
      exact last line hline
    | cons c rest ih =>
      intro line hline
      cases hc : endsLine c with
      | true => exact next line c rest hline hc (ih [] fun d hd => (List.not_mem_nil hd).elim)
      | false =>
        rw [List.append_cons]
        refine ih (line ++ [c]) fun d hd => ?_
        rcases List.mem_append.mp hd with hd | hd
        · exact hline d hd
        · rw [List.mem_singleton.mp hd]
          exact hc
  exact hfrom [] fun d hd => (List.not_mem_nil hd).elim

theorem linesOf_line {line : List Char} (h : ∀ c ∈ line, endsLine c = false) :
    linesOf line = if line = [] then [] else [line] := by
  rw [linesOf, List.splitOnP_eq_singleton h]
  by_cases hline : line = []
  · rw [if_pos hline, hline]
    rfl
  · simp [hline]

theorem linesOf_append_cons (text rest : List Char) {c : Char} (hc : endsLine c = true) :
    linesOf (text ++ c :: rest) = linesOf text ++ linesOf rest := by
  rw [linesOf, List.splitOnP_append_cons text rest hc, List.filter_append]
  rfl

theorem recordText_lineFields {line : List Char} (hquote : '"' ∉ line)
    (hline : ∀ c ∈ line, endsLine c = false) :
    RecordText (lineFields line) (String.ofList line) := by
  have hplain : ∀ c ∈ line, c ≠ '"' ∧ c ≠ '\r' ∧ c ≠ '\n' := by
    intro c hc
    obtain ⟨hfeed, hreturn⟩ := endsLine_eq_false_iff.mp (hline c hc)
    exact ⟨fun h => hquote (h ▸ hc), hreturn, hfeed⟩
  obtain ⟨piece, pieces, htext, -, hpieces⟩ := exists_pieces hplain
  have hchars : line = [','].intercalate ((piece :: pieces).map String.toList) := by
    rw [← String.toList_ofList (l := line), htext, String.toList_intercalate]
    rfl
  have hcomma : ∀ p ∈ (piece :: pieces).map String.toList, ',' ∉ p := by
    intro p hp hmem
    obtain ⟨text, htext, rfl⟩ := List.mem_map.mp hp
    exact needsQuotes_eq_false_iff.mp (hpieces text htext) ',' hmem (.inl rfl)
  have hfields : lineFields line = piece :: pieces := by
    rw [lineFields, hchars, List.splitOn_intercalate ',' hcomma (List.cons_ne_nil _ _),
      List.map_map]
    exact List.map_id'' (fun _ => String.ofList_toList) _
  rw [hfields]
  exact ⟨piece :: pieces, List.forall₂_same.mpr fun p hp => .bare (hpieces p hp), htext⟩

/-! ## Records -/

/-- The record has the fields of the line. -/
def IsLine (r : RawRecord) (line : List Char) : Prop := r.fields = (lineFields line).map encode

namespace Scan

variable {here start : Mark} {records : List RawRecord}

theorem push_outside {b : UInt8} (hb : endsRecord b = true) :
    push ⟨here, start, .outside, [], [], records⟩ b =
      ⟨here.after b, start, .outside, [], [], records⟩ := by
  simp [push, hb]

theorem exists_run_end {c : Char} (hc : endsLine c = true) :
    ∃ b, endsRecord b = true ∧ ∀ s : Scan, s.run (String.singleton c) = s.push b := by
  simp only [endsLine, Bool.or_eq_true, decide_eq_true_eq] at hc
  rcases hc with rfl | rfl
  · exact ⟨0x0A, rfl, fun s => by rw [run, Utf8.encode_eq]; rfl⟩
  · exact ⟨0x0D, rfl, fun s => by rw [run, Utf8.encode_eq]; rfl⟩

section Line

variable {line : List Char} (hquote : '"' ∉ line) (hline : ∀ c ∈ line, endsLine c = false)
  (hne : line ≠ [])

include hquote hline hne

/-- A line at the end of a text is a last record. -/
theorem finish_run_line (here start : Mark) (done : List RawRecord) :
    (run ⟨here, start, .outside, [], [], done⟩ (String.ofList line)).finish =
      done.reverse ++ [⟨start, (lineFields line).map encode⟩] := by
  obtain ⟨next, field, fields, hrun, hfields, -, hout⟩ := run_line start done
    (recordText_lineFields hquote hline) (fun h => hne (String.ofList_eq_empty_iff.mp h)) here
  rw [hrun, finish, if_neg hout, endRecord, hfields, List.reverse_cons]

/-- A line is a record at its end. -/
theorem push_run_line (here start : Mark) (done : List RawRecord) {b : UInt8}
    (hb : endsRecord b = true) :
    (run ⟨here, start, .outside, [], [], done⟩ (String.ofList line)).push b =
      between ((here.past (encode (String.ofList line))).after b)
        (⟨start, (lineFields line).map encode⟩ :: done) := by
  obtain ⟨next, field, fields, hrun, hfields, hphase, hout⟩ := run_line start done
    (recordText_lineFields hquote hline) (fun h => hne (String.ofList_eq_empty_iff.mp h)) here
  rw [hrun, push_end hphase hout hb, hfields]

end Line

/-- Between two records the rest of a text gives a record for each of its lines. The induction is on
the lines, and the line that is last may lack its end. -/
theorem exists_finish_run {text : List Char} (hquote : '"' ∉ text) (here start : Mark)
    (done : List RawRecord) :
    ∃ found, (run ⟨here, start, .outside, [], [], done⟩ (String.ofList text)).finish =
        done.reverse ++ found ∧ List.Forall₂ IsLine found (linesOf text) := by
  induction text using lines_induction generalizing here start done with
  | last line hline =>
    rw [linesOf_line hline]
    by_cases hnil : line = []
    · subst hnil
      refine ⟨[], ?_, .nil⟩
      rw [String.ofList_nil, run_empty, List.append_nil]
      rfl
    · rw [if_neg hnil]
      exact ⟨_, finish_run_line hquote hline hnil here start done, .cons rfl .nil⟩
  | next line c rest hline hc ih =>
    obtain ⟨b, hb, hpush⟩ := exists_run_end hc
    rw [List.mem_append, List.mem_cons, not_or, not_or] at hquote
    rw [linesOf_append_cons line rest hc, linesOf_line hline, String.ofList_append,
      String.ofList_cons, run_append, run_append, hpush]
    by_cases hnil : line = []
    · subst hnil
      obtain ⟨found, hfound, hlines⟩ := ih hquote.2.2 (here.after b) start done
      refine ⟨found, ?_, hlines⟩
      rw [String.ofList_nil, run_empty, push_outside hb, hfound]
    · rw [push_run_line hquote.1 hline hnil here start done hb, if_neg hnil]
      generalize (here.past (encode (String.ofList line))).after b = place
      obtain ⟨found, hfound, hlines⟩ := ih hquote.2.2 place place
        (⟨start, (lineFields line).map encode⟩ :: done)
      refine ⟨⟨start, (lineFields line).map encode⟩ :: found, ?_, .cons rfl hlines⟩
      rw [between, hfound, List.reverse_cons, List.append_assoc]
      rfl

end Scan

/-- A text without a byte order mark at its start. -/
def unmarked (text : List Char) : List Char :=
  if text.head? = some '\uFEFF' then text.tail else text

/-- The bytes of a text are read from behind its byte order mark, if it has one. -/
theorem exists_rawRecords_unmarked (text : String) : ∃ here : Mark, here.feeds = 0 ∧
    rawRecords (encode text) = (Scan.run ⟨here, ⟨0, 0⟩, .outside, [], [], []⟩
      (String.ofList (unmarked text.toList))).finish := by
  by_cases hmark : text.toList.head? = some '\uFEFF'
  · obtain ⟨rest, hrest⟩ := List.head?_eq_some_iff.mp hmark
    have hbytes : encode text = 0xEF :: 0xBB :: 0xBF :: encode (String.ofList rest) := by
      rw [encode_eq, encode_eq, hrest, String.toList_ofList]
      rfl
    have hunmarked : unmarked text.toList = rest := by rw [unmarked, if_pos hmark, hrest]; rfl
    refine ⟨⟨3, 0⟩, rfl, ?_⟩
    rw [rawRecords, hbytes, hunmarked]
    rfl
  · refine ⟨⟨0, 0⟩, rfl, ?_⟩
    rw [rawRecords_encode hmark, unmarked, if_neg hmark, Scan.between, String.ofList_toList]

theorem not_mem_unmarked {text : List Char} {c : Char} (h : c ∉ text) : c ∉ unmarked text := by
  rw [unmarked]
  split
  · exact fun hmem => h (List.mem_of_mem_tail hmem)
  · exact h

/-- The records of a text without quotes are its lines. -/
theorem isLine_rawRecords {text : String} (hquote : '"' ∉ text.toList) :
    List.Forall₂ IsLine (rawRecords (encode text)) (linesOf (unmarked text.toList)) := by
  obtain ⟨here, -, hrecords⟩ := exists_rawRecords_unmarked text
  obtain ⟨found, hfound, hlines⟩ :=
    Scan.exists_finish_run (not_mem_unmarked hquote) here ⟨0, 0⟩ []
  rw [hrecords, hfound]
  exact hlines

/-- The record of a line. -/
def lineRecord (line : List Char) (number : Nat) : Record :=
  ⟨number, (lineFields line).map asRead⟩

theorem decode_of_isLine {r : RawRecord} {line : List Char} (h : IsLine r line) (number : Nat) :
    r.decode number = .ok (lineRecord line r.line) := by
  rw [RawRecord.decode, show r.fields = _ from h, decodeFields_encode]
  rfl

theorem records_of_isLine {bytes : Bytes} {lines : List (List Char)}
    (h : List.Forall₂ IsLine (rawRecords bytes) lines) :
    List.Forall₂ (fun x line => ∃ number, x = .ok (lineRecord line number)) (records bytes)
      lines := by
  rw [records]
  generalize rawRecords bytes = raws at h
  have hdecode : ∀ before, List.Forall₂ (fun x line => ∃ number, x = .ok (lineRecord line number))
      (raws.mapIdx fun i r => r.decode (i + before)) lines := by
    induction h with
    | nil => exact fun before => .nil
    | @cons r line raws lines hline _ ih =>
      intro before
      rw [List.mapIdx_cons]
      refine .cons ⟨r.line, decode_of_isLine hline _⟩ ?_
      · have hrest := ih (before + 1)
        simp only [Nat.add_assoc, Nat.add_comm 1] at hrest ⊢
        exact hrest
  exact hdecode 0

end Delimited

open Delimited

/-! ## What a trace says -/

/-- What an event says, without its line. -/
def Event.row (e : Event) : TraceRow := ⟨e.tick, e.kind, e.params⟩

/-- The same fault on no line in particular. -/
def TraceFault.withoutLine : TraceFault → TraceFault
  | .invalidTick _ value => .invalidTick 0 value
  | .missingKind _ => .missingKind 0
  | .missingField _ kind index field => .missingField 0 kind index field
  | .invalidNumber _ kind field value => .invalidNumber 0 kind field value
  | .malformedRow _ fault => .malformedRow 0 fault
  | fault => fault

/-- What a trace says, without the lines on which it says so. -/
def withoutLines (read : Except TraceFault (List Event)) : Except TraceFault (List TraceRow) :=
  (read.map fun events => events.map Event.row).mapError TraceFault.withoutLine

/-- The line holds more than white space. -/
def isFilled (line : List Char) : Bool := !line.all Text.isBlank

/-- The lines of a text that hold more than white space. -/
def filledLines (text : List Char) : List (List Char) := (text.splitOnP endsLine).filter isFilled

theorem filter_linesOf (text : List Char) : (linesOf text).filter isFilled = filledLines text := by
  rw [linesOf, List.filter_filter, filledLines]
  congr 1
  funext line
  cases line with
  | nil => rfl
  | cons c line => simp

/-- A line of white space is a record of one empty field. -/
theorem fields_lineRecord_of_blank {line : List Char} (h : isFilled line = false) (number : Nat) :
    (lineRecord line number).fields = [""] := by
  have hblank : line.all Text.isBlank = true := by simpa [isFilled] using h
  have hcomma : ',' ∉ line := by
    intro hmem
    have hc := List.all_eq_true.mp hblank ',' hmem
    revert hc
    decide
  have htrim : asRead (String.ofList line) = "" := by
    rw [asRead, String.toList_ofList, Text.trim, Text.trimStart,
      List.dropWhile_eq_nil_iff.mpr (List.all_eq_true.mp hblank)]
    rfl
  rw [lineRecord, lineFields, List.splitOn_eq_singleton hcomma]
  exact congrArg (fun field => [field]) htrim

/-- A record of one empty field is passed over, whether the rows have begun or not. -/
theorem eventsFrom_blank {r : Record} (h : r.fields = [""]) (begun : Bool) (done : List Event)
    (rest : List (Except Undecodable Record)) :
    eventsFrom begun done (.ok r :: rest) = eventsFrom begun done rest := by
  have hblank : isBlankRecord r = true := by rw [isBlankRecord, firstField, h]; rfl
  have hstarts : startsRows r = false := by rw [startsRows, firstField, h]; rfl
  rw [eventsFrom, hstarts, hblank]
  cases begun <;> rfl

/-- Of a record a row takes the fields, and the line only for where it is. -/
theorem readRow_of_fields {r r' : Record} (h : r.fields = r'.fields) :
    (∃ fault fault', readRow r = .error fault ∧ readRow r' = .error fault' ∧
        fault.withoutLine = fault'.withoutLine) ∨
      ∃ e e', readRow r = .ok e ∧ readRow r' = .ok e' ∧ e.row = e'.row := by
  obtain ⟨number, fields⟩ := r
  obtain ⟨number', fields'⟩ := r'
  obtain rfl : fields = fields' := h
  unfold readRow firstField
  cases readTick? (fields.head?.getD "") with
  | none => exact .inl ⟨_, _, rfl, rfl, rfl⟩
  | some tick =>
    match fields with
    | [] | [_] => exact .inl ⟨_, _, rfl, rfl, rfl⟩
    | _ :: kind :: params =>
      by_cases hkind : kind = ""
      · simp only [if_pos hkind]
        exact .inl ⟨_, _, rfl, rfl, rfl⟩
      · simp only [if_neg hkind]
        exact .inr ⟨_, _, rfl, rfl, rfl⟩

/-- Records of lines say what the lines do that hold more than white space. The induction is on the
records: one of a blank line is passed over, and of the others only the number differs. -/
theorem withoutLines_eventsFrom {xs : List (Except Undecodable Record)} {lines : List (List Char)}
    (h : List.Forall₂ (fun x line => ∃ number, x = .ok (lineRecord line number)) xs lines)
    (begun : Bool) {done done' : List Event} (hdone : done.map Event.row = done'.map Event.row) :
    withoutLines (eventsFrom begun done xs) = withoutLines (eventsFrom begun done'
      ((lines.filter isFilled).map fun line => .ok (lineRecord line 0))) := by
  induction h generalizing begun done done' with
  | nil =>
    show Except.ok (done.reverse.map Event.row) = Except.ok (done'.reverse.map Event.row)
    rw [List.map_reverse, hdone, List.map_reverse]
  | @cons x line xs lines hx _ ih =>
    obtain ⟨number, rfl⟩ := hx
    cases hfilled : isFilled line with
    | false =>
      rw [eventsFrom_blank (fields_lineRecord_of_blank hfilled number),
        List.filter_cons_of_neg (Bool.eq_false_iff.mp hfilled)]
      exact ih begun hdone
    | true =>
      rw [List.filter_cons_of_pos hfilled, List.map_cons, eventsFrom, eventsFrom]
      -- Both records have the same fields, so the same branch is taken for both.
      have hstarts : startsRows (lineRecord line number) = startsRows (lineRecord line 0) := rfl
      have hblank : isBlankRecord (lineRecord line number) =
          isBlankRecord (lineRecord line 0) := rfl
      rw [hstarts, hblank]
      cases !begun && !startsRows (lineRecord line 0) with
      | true => exact ih false hdone
      | false =>
        cases isBlankRecord (lineRecord line 0) with
        | true => exact ih true hdone
        | false =>
          obtain ⟨fault, fault', hrow, hrow', heq⟩ | ⟨e, e', hrow, hrow', heq⟩ :=
            readRow_of_fields
              (show (lineRecord line number).fields = (lineRecord line 0).fields from rfl)
          · simp only [hrow, hrow']
            exact congrArg Except.error heq
          · simp only [hrow, hrow']
            exact ih true (by rw [List.map_cons, List.map_cons, heq, hdone])

/-- A trace without quotes says what its lines do that hold more than white space. -/
theorem withoutLines_readTrace {text : String} (hquote : '"' ∉ text.toList) :
    withoutLines (readTrace (encode text)) = withoutLines (eventsOfRecords
      ((filledLines (unmarked text.toList)).map fun line => .ok (lineRecord line 0))) := by
  rw [← filter_linesOf]
  exact withoutLines_eventsFrom (records_of_isLine (isLine_rawRecords hquote)) false rfl

/-! ## Layouts -/

/-- The second text is the first in another layout: any line feed may have got a carriage return
before it and lines of white space behind it. At the end of the text, white space need not end with
a line feed. -/
inductive Relaid : List Char → List Char → Prop where
  | nil : Relaid [] []
  | keep {c : Char} {s t : List Char} (rest : Relaid s t) : Relaid (c :: s) (c :: t)
  | feed {ret blank s t : List Char} (ending : ret = [] ∨ ret = ['\r'])
      (white : ∀ c ∈ blank, Text.isBlank c = true)
      (whole : blank = [] ∨ blank.getLast? = some '\n' ∨ s = []) (rest : Relaid s t) :
      Relaid ('\n' :: s) (ret ++ '\n' :: (blank ++ t))

/-- The text with a carriage return before every line feed. -/
def withReturns (text : List Char) : List Char :=
  text.flatMap fun c => if c = '\n' then ['\r', '\n'] else [c]

theorem relaid_withReturns (text : List Char) : Relaid text (withReturns text) := by
  induction text with
  | nil => exact .nil
  | cons c text ih =>
    rw [withReturns, List.flatMap_cons]
    by_cases hc : c = '\n'
    · rw [if_pos hc, hc]
      exact @Relaid.feed ['\r'] [] text (withReturns text) (.inr rfl)
        (fun d hd => (List.not_mem_nil hd).elim) (.inl rfl) ih
    · rw [if_neg hc]
      exact .keep ih

theorem Relaid.append {s t : List Char} (h : Relaid s t) (start : List Char) :
    Relaid (start ++ s) (start ++ t) := by
  induction start with
  | nil => exact h
  | cons c start ih => exact .keep ih

/-- Lines of white space may be put behind any line feed. -/
theorem relaid_blankLines (before after : List Char) (lines : List (List Char))
    (h : ∀ line ∈ lines, ∀ c ∈ line, Text.isBlank c = true) :
    Relaid (before ++ '\n' :: after)
      (before ++ '\n' :: (lines.flatMap (fun line => line ++ ['\n']) ++ after)) := by
  have hsame : Relaid after after := by
    have happend := Relaid.nil.append after
    rwa [List.append_nil] at happend
  refine Relaid.append (@Relaid.feed [] _ after after (.inl rfl) ?_ ?_ hsame) before
  · intro c hc
    obtain ⟨line, hline, hmem⟩ := List.mem_flatMap.mp hc
    rcases List.mem_append.mp hmem with hmem | hmem
    · exact h line hline c hmem
    · rw [List.mem_singleton.mp hmem]
      rfl
  · rcases List.eq_nil_or_concat lines with rfl | ⟨front, last, rfl⟩
    · exact .inl rfl
    · refine .inr (.inl ?_)
      rw [List.concat_eq_append, List.flatMap_append, List.flatMap_singleton, ← List.append_assoc,
        List.getLast?_concat]

theorem filledLines_of_blank {text : List Char} (h : ∀ c ∈ text, Text.isBlank c = true) :
    filledLines text = [] := by
  have hblank : ∀ line : List Char, (∀ c ∈ line, Text.isBlank c = true) →
      isFilled line = false := by
    intro line hline
    rw [isFilled, List.all_eq_true.mpr hline]
    rfl
  induction text using lines_induction with
  | last line hline =>
    rw [filledLines, List.splitOnP_eq_singleton hline,
      List.filter_cons_of_neg (Bool.eq_false_iff.mp (hblank line h))]
    rfl
  | next line c rest hline hc ih =>
    have hfirst := hblank line fun d hd => h d (List.mem_append_left _ hd)
    rw [filledLines, List.splitOnP_append_cons_of_forall_mem hline c hc,
      List.filter_cons_of_neg (Bool.eq_false_iff.mp hfirst)]
    exact ih fun d hd => h d (List.mem_append_right _ (List.mem_cons_of_mem _ hd))

theorem filledLines_append_cons (text rest : List Char) {c : Char} (hc : endsLine c = true) :
    filledLines (text ++ c :: rest) = filledLines text ++ filledLines rest := by
  rw [filledLines, List.splitOnP_append_cons text rest hc, List.filter_append]
  rfl

/-- Two texts with the same first line, whose other lines are the same up to blank ones. -/
def SameLines (s t : List Char) : Prop := ∃ first rest rest',
  s.splitOnP endsLine = first :: rest ∧ t.splitOnP endsLine = first :: rest' ∧
    rest.filter isFilled = rest'.filter isFilled

theorem SameLines.filledLines {s t : List Char} (h : SameLines s t) :
    filledLines t = filledLines s := by
  obtain ⟨first, rest, rest', hs, ht, heq⟩ := h
  rw [ClusterTrace.filledLines, ClusterTrace.filledLines, hs, ht, List.filter_cons,
    List.filter_cons, heq]

theorem Relaid.sameLines {s t : List Char} (h : Relaid s t) : SameLines s t := by
  induction h with
  | nil => exact ⟨[], [], [], rfl, rfl, rfl⟩
  | @keep c s t _ ih =>
    obtain ⟨first, rest, rest', hs, ht, heq⟩ := ih
    rw [SameLines, List.splitOnP_cons_eq_if_modifyHead, List.splitOnP_cons_eq_if_modifyHead, hs, ht]
    cases endsLine c with
    | true =>
      refine ⟨[], first :: rest, first :: rest', rfl, rfl, ?_⟩
      rw [List.filter_cons, List.filter_cons, heq]
    | false => exact ⟨c :: first, rest, rest', rfl, rfl, heq⟩
  | @feed ret blank s t ending white whole rest ih =>
    have hfilled : ClusterTrace.filledLines s = ClusterTrace.filledLines (blank ++ t) := by
      rcases whole with rfl | hlast | rfl
      · exact ih.filledLines.symm
      · obtain ⟨lines, rfl⟩ := List.getLast?_eq_some_iff.mp hlast
        have hlines := filledLines_of_blank fun c hc => white c (List.mem_append_left _ hc)
        rw [← List.append_cons, filledLines_append_cons lines t rfl, hlines, ih.filledLines]
        rfl
      · cases rest
        rw [List.append_nil, filledLines_of_blank white]
        rfl
    have hbreak : ∀ (c : Char) (text : List Char), endsLine c = true →
        (c :: text).splitOnP endsLine = [] :: text.splitOnP endsLine :=
      fun c text hc => List.splitOnP_append_cons [] text hc
    rcases ending with rfl | rfl
    · exact ⟨[], _, _, hbreak '\n' s rfl, hbreak '\n' _ rfl, hfilled⟩
    · -- The carriage return ends the line, so the line feed ends an empty one.
      have hempty := filledLines_append_cons [] (blank ++ t) (show endsLine '\n' = true from rfl)
      exact ⟨[], _, _, hbreak '\n' s rfl, hbreak '\r' _ rfl, hfilled.trans hempty.symm⟩

/-- A byte order mark stays at the start, and no other text gets one. -/
theorem Relaid.unmarked {s t : List Char} (h : Relaid s t) : Relaid (unmarked s) (unmarked t) := by
  have hmarked : ∀ text : List Char, Delimited.unmarked ('\uFEFF' :: text) = text := fun _ => rfl
  have hunmarked : ∀ (c : Char) (text : List Char), c ≠ '\uFEFF' →
      Delimited.unmarked (c :: text) = c :: text :=
    fun c text hc => if_neg fun heq => hc (Option.some.inj heq)
  cases h with
  | nil => exact .nil
  | @keep c s t rest =>
    by_cases hc : c = '\uFEFF'
    · subst hc
      rw [hmarked, hmarked]
      exact rest
    · rw [hunmarked c s hc, hunmarked c t hc]
      exact .keep rest
  | @feed ret blank s t ending white whole rest =>
    have hfeed := Relaid.feed ending white whole rest
    rw [hunmarked '\n' s (by decide)]
    rcases ending with rfl | rfl
    · exact hfeed
    · exact hfeed

theorem Relaid.not_quote {s t : List Char} (h : Relaid s t) (hquote : '"' ∉ s) : '"' ∉ t := by
  induction h with
  | nil => exact hquote
  | keep _ ih =>
    rw [List.mem_cons, not_or] at hquote ⊢
    exact ⟨hquote.1, ih hquote.2⟩
  | @feed ret blank s t ending white _ _ ih =>
    have hret : '"' ∉ ret := by
      rcases ending with rfl | rfl
      · decide
      · decide
    have hblank : '"' ∉ blank := by
      intro hmem
      have hwhite := white '"' hmem
      revert hwhite
      decide
    have ht := ih fun hmem => hquote (List.mem_cons_of_mem _ hmem)
    simp [hret, hblank, ht]

/-- The layout of a trace does not change what it says: neither its rows and their order nor the
fault that stops the reading, except for the line of the fault. -/
theorem readTrace_relaid {text text' : String} (hquote : '"' ∉ text.toList)
    (h : Relaid text.toList text'.toList) :
    withoutLines (readTrace (encode text')) = withoutLines (readTrace (encode text)) := by
  have hlines := h.unmarked.sameLines.filledLines
  rw [withoutLines_readTrace hquote, withoutLines_readTrace (h.not_quote hquote), hlines]

/-- A trace with a row that does not start with a tick. -/
def tightTrace : String := "tick, kind\n0,SIMULATOR_START\nx,LOG_STATS"

def looseTrace : String := "tick, kind\n0,SIMULATOR_START\n\n\t\u00A0\nx,LOG_STATS"

theorem looseTrace_relaid :
    withoutLines (readTrace (encode looseTrace)) = .error (.invalidTick 0 "x") ∧
      withoutLines (readTrace (encode (String.ofList (withReturns tightTrace.toList)))) =
        .error (.invalidTick 0 "x") := by
  have hquote : '"' ∉ tightTrace.toList := by decide +kernel
  have htight : withoutLines (readTrace (encode tightTrace)) = .error (.invalidTick 0 "x") := by
    have hread : readTrace (encode tightTrace) = .error (.invalidTick 3 "x") := by decide +kernel
    rw [hread]
    rfl
  have hblank : ∀ line ∈ [[], ['\t', '\u00A0']], ∀ c ∈ line, Text.isBlank c = true := by
    intro line hline
    have hall : line.all Text.isBlank = true := by
      simp only [List.mem_cons, List.not_mem_nil, or_false] at hline
      rcases hline with rfl | rfl
      · rfl
      · decide
    exact List.all_eq_true.mp hall
  constructor
  · have hlines : Relaid tightTrace.toList looseTrace.toList :=
      relaid_blankLines "tick, kind\n0,SIMULATOR_START".toList "x,LOG_STATS".toList _ hblank
    rw [readTrace_relaid hquote hlines, htight]
  · have hreturns : Relaid tightTrace.toList
        (String.ofList (withReturns tightTrace.toList)).toList := by
      rw [String.toList_ofList]
      exact relaid_withReturns _
    rw [readTrace_relaid hquote hreturns, htight]

end ClusterTrace
