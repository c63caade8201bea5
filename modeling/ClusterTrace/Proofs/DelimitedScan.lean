import Mathlib.Data.List.Forall2
import ClusterTrace.Delimited.Reader
import ClusterTrace.Delimited.Writer
import ClusterTrace.Proofs.Utf8Text

/-!
# Reading back delimited records

A field is written as it is or between quotes, and the lines of a file are records of such fields.
The reader is followed piece by piece: over the plain bytes of a field, over the bytes between
quotes, over a field, a record, a line and a file. What each piece adds to the state is said once,
for any place in the input and any records before.
-/

namespace ClusterTrace.Delimited

open Utf8 (encode)

/-! ## What is written -/

/-- A field and a text it can be written as. -/
inductive FieldText (field : String) : String → Prop where
  /-- As it is. -/
  | bare (plain : needsQuotes field.toList = false) : FieldText field field
  /-- Between quotes, its own quotes doubled. -/
  | quoted : FieldText field (String.ofList ('"' :: doubleQuotes field.toList ++ ['"']))

/-- Fields and a line they can be written as. -/
def RecordText (fields : List String) (line : String) : Prop :=
  ∃ texts, List.Forall₂ FieldText fields texts ∧ line = ",".intercalate texts

/-- Lines as a file, with or without a line feed behind the last one. -/
def fileText (lines : List String) (final : Bool) : String :=
  "\n".intercalate lines ++ if final then "\n" else ""

/-- What stands before a line in the file. -/
def textBefore (lines : List String) (i : Nat) : String :=
  String.join ((lines.take i).map fun line => line ++ "\n")

/-- The number of a line of the file that begins where a line of the list does: one more than the
line feeds before it. -/
def lineNumber (lines : List String) (i : Nat) : Nat := 1 + (encode (textBefore lines i)).count 0x0A

/-- A field as it is read. -/
def asRead (field : String) : String := String.ofList (Text.trim field.toList)

/-- A field can be written as it is if it has no comma, no quote and no line end. -/
theorem needsQuotes_eq_false_iff {text : List Char} : needsQuotes text = false ↔
    ∀ c ∈ text, ¬ (c = ',' ∨ c = '"' ∨ c = '\r' ∨ c = '\n') := by
  simp [needsQuotes, or_assoc]

/-- Every line but the last one has a line feed behind it in any case. -/
theorem fileText_cons_cons (line next : String) (lines : List String) (final : Bool) :
    fileText (line :: next :: lines) final = line ++ "\n" ++ fileText (next :: lines) final := by
  rw [fileText, String.intercalate_cons_cons, String.append_assoc, fileText]

theorem textBefore_cons_succ (line : String) (lines : List String) (i : Nat) :
    textBefore (line :: lines) (i + 1) = line ++ "\n" ++ textBefore lines i := by
  rw [textBefore, List.take_succ_cons, List.map_cons, String.join_cons, textBefore]

theorem fileText_singleton_false (line : String) : fileText [line] false = line := by
  rw [fileText, String.intercalate_singleton]
  exact String.append_empty

theorem fileText_singleton_true (line : String) : fileText [line] true = line ++ "\n" := by
  rw [fileText, String.intercalate_singleton, if_pos rfl]

theorem textBefore_zero (lines : List String) : textBefore lines 0 = "" := rfl

/-- The number of a line counts the line feeds in front of it, also those within quotes. -/
theorem lineNumber_eq (lines : List String) (i : Nat) :
    lineNumber lines i = 1 + (Utf8.bytes (textBefore lines i).toList).count 0x0A := by
  rw [lineNumber, Utf8.encode_eq]

theorem encode_empty : encode "" = [] := Utf8.encode_eq ""

theorem encode_comma : encode "," = [0x2C] := Utf8.encode_eq ","

theorem encode_feed : encode "\n" = [0x0A] := Utf8.encode_eq "\n"

/-! ## Places -/

/-- The place behind some bytes. -/
def Mark.past (m : Mark) (bytes : Bytes) : Mark := bytes.foldl Mark.after m

theorem Mark.past_append (m : Mark) (bytes rest : Bytes) :
    m.past (bytes ++ rest) = (m.past bytes).past rest := List.foldl_append

/-- The mark of a scan counts the line feeds that it has passed. -/
theorem Mark.feeds_past (m : Mark) (bytes : Bytes) :
    (m.past bytes).feeds = m.feeds + bytes.count 0x0A := by
  induction bytes generalizing m with
  | nil => rfl
  | cons b bytes ih =>
    rw [past, List.foldl_cons, ← past, ih, after, List.count_cons]
    by_cases hb : b = 0x0A
    · simp [hb]
      omega
    · simp [hb]

/-! ## Runs of bytes -/

namespace Scan

/-- The state after a text. -/
def run (s : Scan) (text : String) : Scan := (encode text).foldl push s

theorem run_append (s : Scan) (text rest : String) :
    s.run (text ++ rest) = (s.run text).run rest := by
  rw [run, Utf8.encode_append, List.foldl_append]
  rfl

theorem run_empty (s : Scan) : s.run "" = s := by
  rw [run, encode_empty]
  rfl

/-- The byte has no meaning outside of quotes. -/
def Plain (b : UInt8) : Prop := endsRecord b = false ∧ isComma b = false ∧ isQuote b = false

variable {here start : Mark} {phase : Phase} {field : Bytes} {fields : List Bytes}
  {records : List RawRecord}

/-- Over bytes that are each taken into the field the reader takes them all. -/
theorem foldl_take {bytes : Bytes} (h : ∀ b ∈ bytes, ∀ here field,
      push ⟨here, start, phase, field, fields, records⟩ b =
        ⟨here.after b, start, phase, b :: field, fields, records⟩) :
    bytes.foldl push ⟨here, start, phase, field, fields, records⟩ =
      ⟨here.past bytes, start, phase, bytes.reverse ++ field, fields, records⟩ := by
  induction bytes generalizing here field with
  | nil => rfl
  | cons b bytes ih =>
    rw [List.foldl_cons, h b List.mem_cons_self, ih fun b hb => h b (List.mem_cons_of_mem _ hb),
      List.reverse_cons, List.append_assoc]
    rfl

/-- Outside quotes a byte that is none of the special ones goes into the field. -/
theorem push_plain (hphase : phase ≠ .quoted ∧ phase ≠ .closing) {b : UInt8} (hb : Plain b) :
    push ⟨here, start, phase, field, fields, records⟩ b =
      ⟨here.after b, start, .bare, b :: field, fields, records⟩ := by
  obtain ⟨hend, hcomma, hquote⟩ := hb
  cases phase with
  | outside | opening | bare => simp [push, pushOpening, pushBare, take, hend, hcomma, hquote]
  | quoted => exact absurd rfl hphase.1
  | closing => exact absurd rfl hphase.2

/-- Within quotes every byte but a quote goes into the field, commas and line ends as well. -/
theorem push_quoted {b : UInt8} (hb : isQuote b = false) :
    push ⟨here, start, .quoted, field, fields, records⟩ b =
      ⟨here.after b, start, .quoted, b :: field, fields, records⟩ := by
  simp [push, take, hb]

/-- Between quotes a text with its quotes doubled is read as the text. -/
theorem foldl_doubleQuotes (text : List Char) :
    (Utf8.bytes (doubleQuotes text)).foldl push ⟨here, start, .quoted, field, fields, records⟩ =
      ⟨here.past (Utf8.bytes (doubleQuotes text)), start, .quoted,
        (Utf8.bytes text).reverse ++ field, fields, records⟩ := by
  induction text generalizing here field with
  | nil => rfl
  | cons c text ih =>
    by_cases hc : c = '"'
    · -- The first of two quotes seems to close the field, the second one takes that back.
      subst hc
      have hdouble : Utf8.bytes (doubleQuotes ('"' :: text)) =
          0x22 :: 0x22 :: Utf8.bytes (doubleQuotes text) := rfl
      have hbytes : Utf8.bytes ('"' :: text) = 0x22 :: Utf8.bytes text := rfl
      have hpair : ∀ here, push (push ⟨here, start, .quoted, field, fields, records⟩ 0x22) 0x22 =
          ⟨(here.after 0x22).after 0x22, start, .quoted, 0x22 :: field, fields, records⟩ :=
        fun _ => rfl
      rw [hdouble, List.foldl_cons, List.foldl_cons, hpair, ih, hbytes, List.reverse_cons,
        List.append_assoc]
      rfl
    · have hplain : ∀ b ∈ String.utf8EncodeChar c, isQuote b = false := by
        intro b hb
        refine decide_eq_false fun hquote => hc ?_
        have hmem : UInt8.ofNat '"'.toNat ∈ Utf8.bytes [c] := by
          rw [Utf8.bytes, List.flatMap_singleton]
          exact (show b = UInt8.ofNat '"'.toNat from hquote) ▸ hb
        exact (List.mem_singleton.mp (Utf8.mem_of_mem_bytes (by decide) hmem)).symm
      have hdouble : Utf8.bytes (doubleQuotes (c :: text)) =
          String.utf8EncodeChar c ++ Utf8.bytes (doubleQuotes text) := by
        rw [doubleQuotes, List.flatMap_cons, if_neg hc]
        rfl
      have hbytes : Utf8.bytes (c :: text) = String.utf8EncodeChar c ++ Utf8.bytes text := rfl
      rw [hdouble, List.foldl_append, foldl_take fun b hb _ _ => push_quoted (hplain b hb), ih,
        ← Mark.past_append, hbytes, List.reverse_append, List.append_assoc]

/-- A field that needs no quotes has no special byte. In UTF-8 the bytes of the special characters
occur in no other character. -/
theorem plain_of_bare {field : String} (h : needsQuotes field.toList = false) :
    ∀ b ∈ encode field, Plain b := by
  intro b hb
  rw [Utf8.encode_eq] at hb
  have hne : ∀ c : Char, c.toNat < 0x80 → (c = ',' ∨ c = '"' ∨ c = '\r' ∨ c = '\n') →
      b ≠ UInt8.ofNat c.toNat := by
    rintro c hascii hspecial rfl
    exact needsQuotes_eq_false_iff.mp h c (Utf8.mem_of_mem_bytes hascii hb) hspecial
  have hcomma : b ≠ 0x2C := hne ',' (by decide) (by decide)
  have hquote : b ≠ 0x22 := hne '"' (by decide) (by decide)
  have hreturn : b ≠ 0x0D := hne '\r' (by decide) (by decide)
  have hfeed : b ≠ 0x0A := hne '\n' (by decide) (by decide)
  simp [Plain, endsRecord, isComma, isQuote, hcomma, hquote, hreturn, hfeed]

/-- A comma outside quotes ends the field and begins the next one. -/
theorem push_comma (hphase : phase ≠ .quoted) :
    push ⟨here, start, phase, field, fields, records⟩ 0x2C =
      ⟨here.after 0x2C, start, .opening, [], field.reverse :: fields, records⟩ := by
  cases phase with
  | outside | opening | bare | closing => rfl
  | quoted => exact absurd rfl hphase

/-- The state between two records, with the records so far in reverse. -/
def between (m : Mark) (records : List RawRecord) : Scan := ⟨m, m, .outside, [], [], records⟩

/-- A line end outside quotes ends the field and the record. -/
theorem push_end (hphase : phase ≠ .quoted) (hout : phase ≠ .outside) {b : UInt8}
    (hb : endsRecord b = true) : push ⟨here, start, phase, field, fields, records⟩ b =
      between (here.after b) (⟨start, (field.reverse :: fields).reverse⟩ :: records) := by
  have hquote : isQuote b = false := by
    simp only [endsRecord, Bool.or_eq_true, decide_eq_true_eq] at hb
    rcases hb with rfl | rfl <;> rfl
  cases phase with
  | opening | bare | closing => simp [push, pushOpening, pushBare, endRecord, between, hb, hquote]
  | outside => exact absurd rfl hout
  | quoted => exact absurd rfl hphase

/-! ## Fields and records -/

/-- Over the text of a field the reader takes the field and waits for what ends it. Only the empty
text at the start of a line leaves it between records. -/
theorem run_field (here start : Mark) (fields : List Bytes) (records : List RawRecord)
    {value text : String} (h : FieldText value text)
    (hphase : phase = .outside ∨ phase = .opening) :
    ∃ next, run ⟨here, start, phase, [], fields, records⟩ text =
        ⟨here.past (encode text), start, next, (encode value).reverse, fields, records⟩ ∧
      next ≠ .quoted ∧ (next = .outside → phase = .outside ∧ text = "") := by
  cases h with
  | bare hplain =>
    have hbytes := plain_of_bare hplain
    rw [run]
    cases hvalue : encode value with
    | nil =>
      refine ⟨phase, rfl, ?_, fun hout => ⟨hout, Utf8.eq_empty_of_encode hvalue⟩⟩
      rcases hphase with rfl | rfl <;> decide
    | cons b bytes =>
      rw [hvalue] at hbytes
      refine ⟨.bare, ?_, by decide, fun hout => absurd hout (by decide)⟩
      rw [List.foldl_cons, push_plain ?_ (hbytes b List.mem_cons_self),
        foldl_take fun b hb _ _ =>
          push_plain (by decide) (hbytes b (List.mem_cons_of_mem _ hb)), List.reverse_cons]
      · rfl
      · rcases hphase with rfl | rfl <;> decide
  | quoted =>
    have hbytes : encode (String.ofList ('"' :: doubleQuotes value.toList ++ ['"'])) =
        0x22 :: (Utf8.bytes (doubleQuotes value.toList) ++ [0x22]) := by
      rw [Utf8.encode_eq, String.toList_ofList, List.cons_append, Utf8.bytes, List.flatMap_cons,
        List.flatMap_append]
      rfl
    have hopen : push ⟨here, start, phase, [], fields, records⟩ 0x22 =
        ⟨here.after 0x22, start, .quoted, [], fields, records⟩ := by
      rcases hphase with rfl | rfl <;> rfl
    have hplace : here.past (0x22 :: (Utf8.bytes (doubleQuotes value.toList) ++ [0x22])) =
        ((here.after 0x22).past (Utf8.bytes (doubleQuotes value.toList))).after 0x22 :=
      Mark.past_append (here.after 0x22) _ _
    refine ⟨.closing, ?_, by decide, fun hout => absurd hout (by decide)⟩
    rw [run, hbytes, List.foldl_cons, hopen, List.foldl_append, foldl_doubleQuotes,
      List.append_nil, ← Utf8.encode_eq, hplace]
    rfl

/-- Over the texts of a record the reader takes all its fields; the last one is not ended yet. The
induction is on the fields, and between two of them stands a comma. -/
theorem run_record (here start : Mark) (fields : List Bytes) (records : List RawRecord)
    {values texts : List String} (h : List.Forall₂ FieldText values texts) (hne : values ≠ [])
    (hphase : phase = .outside ∨ phase = .opening) :
    ∃ next last done, run ⟨here, start, phase, [], fields, records⟩ (",".intercalate texts) =
        ⟨here.past (encode (",".intercalate texts)), start, next, last, done, records⟩ ∧
      (last.reverse :: done).reverse = fields.reverse ++ values.map encode ∧
      next ≠ .quoted ∧ (next = .outside → phase = .outside ∧ ",".intercalate texts = "") := by
  induction h generalizing here phase fields with
  | nil => exact absurd rfl hne
  | @cons value text values texts hfield hrest ih =>
    obtain ⟨next, hrun, hquoted, hout⟩ := run_field here start fields records hfield hphase
    cases hrest with
    | nil => exact ⟨next, _, fields, hrun, by simp, hquoted, hout⟩
    | @cons value' text' values texts hfield' hrest =>
      -- Behind a comma the rest is a record of its own, with one more field before it.
      have hcomma : run ⟨here.past (encode text), start, next, (encode value).reverse, fields,
          records⟩ "," = ⟨(here.past (encode text)).past (encode ","), start, .opening, [],
            encode value :: fields, records⟩ := by
        rw [run, encode_comma, ← List.reverse_reverse (encode value), List.reverse_reverse]
        exact push_comma hquoted
      obtain ⟨next', last, done, hrun', hfields, hquoted', hout'⟩ :=
        ih ((here.past (encode text)).past (encode ",")) (encode value :: fields)
          (List.cons_ne_nil _ _) (.inr rfl)
      refine ⟨next', last, done, ?_, ?_, hquoted', fun h => absurd (hout' h).1 (by decide)⟩
      · rw [String.intercalate_cons_cons, run_append, run_append, hrun, hcomma, hrun',
          Utf8.encode_append, Utf8.encode_append, Mark.past_append, Mark.past_append]
      · rw [hfields]
        simp

/-! ## Lines and files -/

section Line

variable {values : List String} {line : String} (m : Mark) (records : List RawRecord)
  (h : RecordText values line) (hne : line ≠ "")

include h hne

/-- Over a line the reader takes its fields and stays inside the record. -/
theorem run_line (here : Mark) :
    ∃ next last done, run ⟨here, m, .outside, [], [], records⟩ line =
        ⟨here.past (encode line), m, next, last, done, records⟩ ∧
      (last.reverse :: done).reverse = values.map encode ∧ next ≠ .quoted ∧ next ≠ .outside := by
  obtain ⟨texts, htexts, rfl⟩ := h
  have hvalues : values ≠ [] := by
    rintro rfl
    cases htexts
    exact hne String.intercalate_nil
  obtain ⟨next, last, done, hrun, hfields, hquoted, hout⟩ :=
    run_record here m [] records htexts hvalues (.inl rfl)
  exact ⟨next, last, done, hrun, hfields, hquoted, fun h => hne (hout h).2⟩

/-- A line feed behind a line gives its record. -/
theorem run_line_feed : run (between m records) (line ++ "\n") =
    between (m.past (encode (line ++ "\n"))) (⟨m, values.map encode⟩ :: records) := by
  obtain ⟨next, last, done, hrun, hfields, hquoted, hout⟩ := run_line m records h hne m
  rw [run_append, between, hrun, Utf8.encode_append, Mark.past_append, run, encode_feed, ← hfields]
  exact push_end hquoted hout rfl

theorem finish_line : (run (between m records) line).finish =
    (⟨m, values.map encode⟩ :: records).reverse := by
  obtain ⟨next, last, done, hrun, hfields, -, hout⟩ := run_line m records h hne m
  rw [between, hrun, finish, if_neg hout, endRecord, ← hfields]

end Line

/-- Over a file the reader takes one record for a line, which starts at the end of the line above.
The induction is on the lines, each of which leaves the reader between two records. -/
theorem finish_run {values : List (List String)} {lines : List String}
    (h : List.Forall₂ RecordText values lines) (hne : ∀ line ∈ lines, line ≠ "") (final : Bool)
    (m : Mark) (done : List RawRecord) :
    (run (between m done) (fileText lines final)).finish =
      done.reverse ++ values.mapIdx fun i fields =>
        ⟨m.past (encode (textBefore lines i)), fields.map encode⟩ := by
  induction h generalizing m done with
  | nil =>
    have hrun : ∀ text, text = "" ∨ text = "\n" →
        (run (between m done) text).finish = done.reverse := by
      rintro text (rfl | rfl)
      · rw [run_empty]
        rfl
      · rw [run, encode_feed]
        rfl
    rw [List.mapIdx_nil, List.append_nil]
    cases final with
    | false => exact hrun _ (.inl rfl)
    | true => exact hrun _ (.inr rfl)
  | @cons fields line values lines hline hrest ih =>
    have hfirst := hne line List.mem_cons_self
    have hstart : m.past (encode (textBefore (line :: lines) 0)) = m := by
      rw [textBefore_zero, encode_empty]
      rfl
    -- Places behind the first line are places of the other lines, counted from there.
    have hplace : ∀ i, m.past (encode (textBefore (line :: lines) (i + 1))) =
        (m.past (encode (line ++ "\n"))).past (encode (textBefore lines i)) := fun i => by
      rw [textBefore_cons_succ, Utf8.encode_append, Mark.past_append]
    have hfeed := run_line_feed m done hline hfirst
    rw [List.mapIdx_cons, hstart]
    simp only [hplace]
    cases hrest with
    | nil =>
      cases final with
      | false =>
        rw [fileText_singleton_false, finish_line m done hline hfirst, List.reverse_cons]
        rfl
      | true =>
        rw [fileText_singleton_true, hfeed]
        exact List.reverse_cons
    | @cons fields' line' values lines hline' hrest =>
      have hlines := ih (fun l hl => hne l (List.mem_cons_of_mem _ hl))
        (m.past (encode (line ++ "\n"))) (⟨m, fields.map encode⟩ :: done)
      rw [fileText_cons_cons, run_append, hfeed, hlines, List.reverse_cons, List.append_assoc]
      rfl

end Scan

/-! ## Records as text -/

/-- Only the text of a byte order mark begins with its bytes. -/
theorem isPrefixOf_encode {text : String} (h : text.toList.head? ≠ some '\uFEFF') :
    byteOrderMark.isPrefixOf (encode text) = false := by
  rw [Bool.eq_false_iff]
  intro hmark
  obtain ⟨rest, hrest⟩ := List.isPrefixOf_iff_prefix.mp hmark
  rw [Utf8.encode_eq] at hrest
  cases htext : text.toList with
  | nil =>
    rw [htext] at hrest
    cases hrest
  | cons c cs =>
    have hc := Utf8.encoded c
    rw [htext, Utf8.bytes, List.flatMap_cons, ← Utf8.bytes] at hrest
    generalize String.utf8EncodeChar c = all at hrest hc
    cases all with
    | nil => cases hc
    | cons first more =>
      have hlead := Utf8.lead_of_encoded hc (Utf8.bytes cs)
      obtain ⟨rfl, hmore⟩ : 0xEF = first ∧ 0xBB :: 0xBF :: rest = more ++ Utf8.bytes cs :=
        List.cons.inj hrest
      have hlead' : Utf8.lead 0xEF (0xBB :: 0xBF :: rest) = .scalar '\uFEFF' 2 := rfl
      rw [← hmore, hlead'] at hlead
      obtain ⟨rfl, -⟩ := Utf8.Lead.scalar.inj hlead
      exact h (by rw [htext]; rfl)

/-- A text without a byte order mark is scanned from its first byte on. -/
theorem rawRecords_encode {text : String} (h : text.toList.head? ≠ some '\uFEFF') :
    rawRecords (encode text) = ((Scan.between ⟨0, 0⟩ []).run text).finish := by
  rw [rawRecords, isPrefixOf_encode h]
  rfl

/-- Fields that were written as text are text again, without the white space around them. -/
theorem decodeFields_encode (number : Nat) (fields : List String) :
    decodeFields number (fields.map encode) = .ok (fields.map asRead) := by
  induction fields generalizing number with
  | nil => rfl
  | cons field fields ih =>
    rw [List.map_cons, decodeFields, Utf8.decode?_encode]
    simp only [ih]
    rfl

/-- A file of written records is read as these records, each field without the white space at its
ends, with the numbers of their lines. -/
theorem records_fileText {values : List (List String)} {lines : List String} {final : Bool}
    (h : List.Forall₂ RecordText values lines) (hne : ∀ line ∈ lines, line ≠ "")
    (hmark : (fileText lines final).toList.head? ≠ some '\uFEFF') :
    records (encode (fileText lines final)) = values.mapIdx fun i fields =>
      .ok ⟨lineNumber lines i, fields.map asRead⟩ := by
  have hdecode : ∀ i number (fields : List String),
      RawRecord.decode ⟨Mark.past ⟨0, 0⟩ (encode (textBefore lines i)), fields.map encode⟩ number =
        .ok ⟨lineNumber lines i, fields.map asRead⟩ := fun i number fields => by
    rw [RawRecord.decode, decodeFields_encode, RawRecord.line, Mark.feeds_past, lineNumber,
      Nat.zero_add, Nat.add_comm]
  rw [records, rawRecords_encode hmark, Scan.finish_run h hne, List.reverse_nil, List.nil_append,
    List.mapIdx_mapIdx]
  simp only [Function.comp_def, hdecode]

end ClusterTrace.Delimited
