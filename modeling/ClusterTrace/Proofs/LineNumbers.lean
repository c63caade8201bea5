import ClusterTrace.Proofs.RowGrammar
import ClusterTrace.Proofs.TraceLayout

/-!
# The numbers of lines

In a text without quotes and carriage returns each line that is not empty is a record. A record is
numbered by the place where the search for it began, which is the end of the record before it: so
the empty lines directly above a row are not counted, and the number of its event is too small by so
many. It is that of the row for all rows that do not stand directly below an empty line.
-/

namespace ClusterTrace

open Utf8 Delimited

/-! ## Lines and where they stand -/

/-- A line of a text. -/
structure PlacedLine where
  /-- The lines above it, the nearest one first. -/
  above : List (List Char)
  text : List Char

namespace PlacedLine

/-- The number of the line in the text, counted from one. -/
def number (p : PlacedLine) : Nat := p.above.length + 1

/-- The number of empty lines directly above the line. -/
def gap (p : PlacedLine) : Nat := (p.above.takeWhile (· = [])).length

/-- The record of the line. -/
def record (p : PlacedLine) : Record := lineRecord p.text (p.number - p.gap)

end PlacedLine

/-- Lines that stand below some others. -/
def placedBelow (above : List (List Char)) : List (List Char) → List PlacedLine
  | [] => []
  | line :: lines => ⟨above, line⟩ :: placedBelow (line :: above) lines

/-- The lines of a text. -/
def placedLines (text : List Char) : List PlacedLine := placedBelow [] (text.splitOn '\n')

/-- The lines of a text that are rows of a trace: from the first one that has a tick in front, all
that hold more than white space. -/
def rowLines (text : List Char) : List PlacedLine :=
  ((placedLines (unmarked text)).dropWhile fun p => !HasTick p.record).filter
    fun p => isFilled p.text

/-- A line that is not empty keeps its place when the empty ones are left out. -/
theorem filter_placedBelow_cons {line : List Char} (h : line ≠ [])
    (above lines : List (List Char)) : (placedBelow above (line :: lines)).filter (·.text ≠ []) =
      ⟨above, line⟩ :: (placedBelow (line :: above) lines).filter (·.text ≠ []) :=
  List.filter_cons_of_pos (p := fun p : PlacedLine => p.text ≠ []) (decide_eq_true h)

theorem PlacedLine.gap_lt_number (p : PlacedLine) : p.gap < p.number :=
  Nat.lt_succ_of_le (List.takeWhile_sublist _).length_le

/-- The number is right exactly for lines without an empty one directly above. -/
theorem PlacedLine.gap_eq_zero_iff (p : PlacedLine) : p.gap = 0 ↔ p.above.head? ≠ some [] := by
  rw [gap, List.length_eq_zero_iff]
  match p.above with
  | [] => simp
  | [] :: _ => simp
  | (c :: line) :: _ => simp

/-! ## The places of records -/

namespace Delimited

/-- The record has the fields of the line, and its number as far as it is counted. -/
def IsPlaced (r : RawRecord) (p : PlacedLine) : Prop :=
  IsLine r p.text ∧ r.line = p.number - p.gap

namespace Scan

/-- The line feeds are what the scan counts lines by, and a line has none within. -/
theorem feeds_past_line {line : List Char} (h : '\n' ∉ line) (m : Mark) :
    (m.past (encode (String.ofList line))).feeds = m.feeds := by
  have hcount : (encode (String.ofList line)).count 0x0A = 0 := by
    rw [List.count_eq_zero, encode_eq, String.toList_ofList]
    exact fun hmem => h (mem_of_mem_bytes (c := '\n') (by decide) hmem)
  rw [Mark.feeds_past, hcount, Nat.add_zero]

/-- A record is numbered by where the search for it began, and that is above the empty lines that
stand directly above its line. -/
theorem isPlaced {above : List (List Char)} {start : Mark}
    (hstart : start.feeds + (above.takeWhile (· = [])).length = above.length) (line : List Char) :
    IsPlaced ⟨start, (lineFields line).map encode⟩ ⟨above, line⟩ := by
  refine ⟨rfl, ?_⟩
  rw [RawRecord.line, PlacedLine.number, PlacedLine.gap]
  show start.feeds + 1 = above.length + 1 - (above.takeWhile (· = [])).length
  omega

/-- Between two records the search for the next one began behind the last line that is not empty. So
a record counts the lines above it, less the empty ones that stand right before it. -/
theorem exists_placed_run {text : List Char} (hquote : '"' ∉ text) (hreturn : '\r' ∉ text)
    (above : List (List Char)) (here start : Mark) (hhere : here.feeds = above.length)
    (hstart : start.feeds + (above.takeWhile (· = [])).length = above.length)
    (done : List RawRecord) :
    ∃ found, (run ⟨here, start, .outside, [], [], done⟩ (String.ofList text)).finish =
        done.reverse ++ found ∧ List.Forall₂ IsPlaced found
          ((placedBelow above (text.splitOn '\n')).filter (·.text ≠ [])) := by
  induction text using lines_induction generalizing above here start done with
  | last line hline =>
    have hfeed : '\n' ∉ line := fun h => (endsLine_eq_false_iff.mp (hline _ h)).1 rfl
    rw [List.splitOn_eq_singleton hfeed]
    by_cases hnil : line = []
    · subst hnil
      refine ⟨[], ?_, .nil⟩
      rw [String.ofList_nil, run_empty, List.append_nil]
      rfl
    · rw [filter_placedBelow_cons hnil]
      exact ⟨_, finish_run_line hquote hline hnil here start done,
        .cons (isPlaced hstart line) .nil⟩
  | next line c rest hline hc ih =>
    obtain rfl : c = '\n' := by
      rcases Bool.or_eq_true_iff.mp hc with h | h
      · exact of_decide_eq_true h
      · rw [of_decide_eq_true h] at hreturn
        exact absurd (List.mem_append_right line List.mem_cons_self) hreturn
    have hfeed : '\n' ∉ line := fun h => (endsLine_eq_false_iff.mp (hline _ h)).1 rfl
    rw [List.mem_append, List.mem_cons, not_or, not_or] at hquote hreturn
    have hend : ∀ s : Scan, s.run (String.singleton '\n') = s.push 0x0A := fun s => by
      rw [run, encode_eq]
      rfl
    rw [List.splitOn_append_cons_self, List.splitOn_eq_singleton hfeed, List.singleton_append,
      String.ofList_append, String.ofList_cons, run_append, run_append, hend]
    by_cases hnil : line = []
    · -- The search goes on, with one more empty line above.
      subst hnil
      obtain ⟨found, hfound, hlines⟩ := ih hquote.2.2 hreturn.2.2 ([] :: above)
        (here.after 0x0A) start (congrArg (· + 1) hhere) (congrArg (· + 1) hstart) done
      refine ⟨found, ?_, hlines⟩
      rw [String.ofList_nil, run_empty, push_outside rfl, hfound]
    · have hplace : ((here.past (encode (String.ofList line))).after 0x0A).feeds =
          (line :: above).length := by
        rw [List.length_cons, ← hhere, ← feeds_past_line hfeed here]
        rfl
      rw [push_run_line hquote.1 hline hnil here start done rfl,
        filter_placedBelow_cons hnil]
      generalize (here.past (encode (String.ofList line))).after 0x0A = place at hplace
      obtain ⟨found, hfound, hlines⟩ := ih hquote.2.2 hreturn.2.2 (line :: above) place place hplace
        (by rw [List.takeWhile_cons_of_neg (by simpa using hnil)]; exact hplace)
        (⟨start, (lineFields line).map encode⟩ :: done)
      refine ⟨⟨start, (lineFields line).map encode⟩ :: found, ?_,
        .cons (isPlaced hstart line) hlines⟩
      rw [between, hfound, List.reverse_cons, List.append_assoc]
      rfl

end Scan

/-- The records of a text without quotes and carriage returns, and where they stand. -/
theorem isPlaced_rawRecords {text : String} (hquote : '"' ∉ text.toList)
    (hreturn : '\r' ∉ text.toList) : List.Forall₂ IsPlaced (rawRecords (encode text))
      ((placedLines (unmarked text.toList)).filter (·.text ≠ [])) := by
  obtain ⟨here, hhere, hrecords⟩ := exists_rawRecords_unmarked text
  obtain ⟨found, hfound, hplaced⟩ := Scan.exists_placed_run (not_mem_unmarked hquote)
    (not_mem_unmarked hreturn) [] here ⟨0, 0⟩ hhere rfl []
  rw [hrecords, hfound]
  exact hplaced

theorem mapIdx_eq_map_of_forall₂ {α β γ : Type} {R : α → β → Prop} {f : Nat → α → γ} {g : β → γ}
    {as : List α} {bs : List β} (h : List.Forall₂ R as bs) (hf : ∀ a b i, R a b → f i a = g b) :
    as.mapIdx f = bs.map g := by
  induction h generalizing f with
  | nil => rfl
  | @cons a b _ _ hab _ ih =>
    rw [List.mapIdx_cons, List.map_cons, hf a b 0 hab, ih fun a b i => hf a b (i + 1)]

/-- The records of a text without quotes and returns are those of its lines that are not empty, each
with the number of its line less the gap above it. -/
theorem records_encode_placed {text : String} (hquote : '"' ∉ text.toList)
    (hreturn : '\r' ∉ text.toList) : records (encode text) =
      ((placedLines (unmarked text.toList)).filter (·.text ≠ [])).map fun p => .ok p.record := by
  refine mapIdx_eq_map_of_forall₂ (isPlaced_rawRecords hquote hreturn) fun r p number h => ?_
  rw [decode_of_isLine h.1, h.2, PlacedLine.record]

/-! ## Rows among the lines -/

theorem isFilled_of_trim {text : List Char} (h : Text.trim text = []) : isFilled text = false := by
  rw [isFilled, Bool.not_eq_false', List.all_eq_true]
  exact Text.trim_eq_nil_iff.mp h

theorem fields_lineRecord_eq_iff {line : List Char} {number : Nat} :
    (lineRecord line number).fields = [""] ↔ isFilled line = false := by
  refine ⟨fun h => ?_, fun h => fields_lineRecord_of_blank h number⟩
  rw [lineRecord, lineFields, List.map_map, List.map_eq_singleton_iff] at h
  obtain ⟨piece, hsplit, hpiece⟩ := h
  obtain rfl : line = piece := by
    have hjoin : [','].intercalate (line.splitOn ',') = line := List.intercalate_splitOn ','
    rw [← hjoin, hsplit, List.intercalate_singleton]
  refine isFilled_of_trim ?_
  rw [Function.comp_apply, asRead, String.toList_ofList] at hpiece
  exact String.ofList_eq_empty_iff.mp hpiece

/-- Lines that would be dropped in any case may be left out first. -/
theorem dropWhile_filter {α : Type} {p q : α → Bool} (h : ∀ a, q a = false → p a = true)
    (l : List α) : (l.filter q).dropWhile p = (l.dropWhile p).filter q := by
  induction l with
  | nil => rfl
  | cons a l ih =>
    cases hq : q a with
    | false => rw [List.filter_cons_of_neg (Bool.eq_false_iff.mp hq), ih,
        List.dropWhile_cons_of_pos (h a hq)]
    | true =>
      rw [List.filter_cons_of_pos hq]
      cases hp : p a with
      | false =>
        rw [List.dropWhile_cons_of_neg (Bool.eq_false_iff.mp hp),
          List.dropWhile_cons_of_neg (Bool.eq_false_iff.mp hp), List.filter_cons_of_pos hq]
      | true => rw [List.dropWhile_cons_of_pos hp, List.dropWhile_cons_of_pos hp, ih]

end Delimited

/-- The rows of a trace are the records of its row lines. -/
theorem rowRecords_placed (text : List Char) :
    rowRecords (((placedLines (unmarked text)).filter (·.text ≠ [])).map fun p => .ok p.record) =
      (rowLines text).map fun p => .ok p.record := by
  have hnoTick : ∀ p : PlacedLine, decide (p.text ≠ []) = false →
      (!decide (HasTick p.record)) = true := by
    intro p hp
    have hnil : p.text = [] := not_not.mp (of_decide_eq_false hp)
    have hvoid : p.record.fields = [""] :=
      fields_lineRecord_of_blank (by rw [hnil]; rfl) _
    rw [Bool.not_eq_true', decide_eq_false_iff_not]
    exact fun htick => htick.filled hvoid
  have hfilled : ∀ p : PlacedLine, (!isVoid (.ok p.record) && decide (p.text ≠ [])) =
      isFilled p.text := by
    intro p
    have hvoid : isVoid (.ok p.record) = !isFilled p.text := by
      rw [isVoid, Bool.eq_iff_iff, decide_eq_true_iff, Bool.not_eq_true']
      exact fields_lineRecord_eq_iff
    rw [hvoid, Bool.not_not]
    cases p.text with
    | nil => rfl
    | cons c line => exact Bool.and_true _
  rw [rowRecords, List.dropWhile_map, List.filter_map, rowLines, Function.comp_def,
    Function.comp_def]
  simp only [endsHeader]
  rw [dropWhile_filter hnoTick, List.filter_filter]
  simp only [hfilled]

/-- In a trace without quotes and carriage returns that can be read, each row gives an event. The
line of the event is that of the row less the number of empty lines directly above it, and so is
right exactly if there are none. -/
theorem readTrace_lines {text : String} {events : List Event} (hquote : '"' ∉ text.toList)
    (hreturn : '\r' ∉ text.toList) (h : readTrace (encode text) = .ok events) :
    List.Forall₂ (fun p e => IsRow p.record e ∧ e.line + p.gap = p.number ∧
      (e.line = p.number ↔ p.above.head? ≠ some [])) (rowLines text.toList) events := by
  rw [readTrace, records_encode_placed hquote hreturn, eventsOfRecords_eq_ok_iff,
    rowRecords_placed, List.forall₂_map_left_iff] at h
  refine h.2.imp fun p e hrow => ?_
  obtain ⟨r, hr, hrow⟩ := hrow
  obtain rfl : p.record = r := Except.ok.inj hr
  have hline : e.line = p.number - p.gap := hrow.line
  have hgap := p.gap_lt_number
  refine ⟨hrow, by omega, ?_⟩
  rw [← p.gap_eq_zero_iff]
  omega

/-- A trace with a line of white space and with empty lines. -/
def spacedTrace : String := "time,event\n0,SIMULATOR_START\n\n \t\n15,LOG_STATS, 1 ,2\n\n\n20,X"

def spacedEvents : List Event :=
  [⟨2, 0, "SIMULATOR_START", []⟩, ⟨5, 15, "LOG_STATS", ["1", "2"]⟩, ⟨6, 20, "X", []⟩]

/-- The last of the rows stands below two empty lines. -/
theorem spacedTrace_lines : List.Forall₂ (fun p e => IsRow p.record e ∧ e.line + p.gap = p.number ∧
    (e.line = p.number ↔ p.above.head? ≠ some [])) (rowLines spacedTrace.toList) spacedEvents ∧
    (rowLines spacedTrace.toList).map PlacedLine.number = [2, 5, 8] :=
  ⟨readTrace_lines (by decide +kernel) (by decide +kernel) (by decide +kernel), by decide +kernel⟩

/-- The second row of a trace is on its third line and read as on its second. -/
theorem emptyLine_uncounted : readTrace (encode "1,A\n\n2,B") =
      .ok [⟨1, 1, "A", []⟩, ⟨2, 2, "B", []⟩] ∧
    (rowLines "1,A\n\n2,B".toList).map PlacedLine.number = [1, 3] :=
  ⟨by decide +kernel, by decide +kernel⟩

end ClusterTrace
