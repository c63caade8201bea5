import ClusterTrace.Proofs.TraceText

/-!
# Which records are the rows of a trace

The records of a trace are a header, up to the first record with a tick in front, and then rows,
with records of one empty field among them. A trace is read if all its records are text and every
row has a tick and a kind, and then each row is one event. Otherwise nothing is read, and the fault
is that of the first record that is wrong.
-/

namespace ClusterTrace

open Delimited (Record Undecodable)

/-! ## The grammar -/

/-- The record has a tick in front. -/
def HasTick (r : Record) : Prop := TickText (firstField r).toList

instance (r : Record) : Decidable (HasTick r) := inferInstanceAs (Decidable (TickText _))

/-- The second field of the record is there and not empty. -/
def HasKind (r : Record) : Prop := ∃ kind, r.fields[1]? = some kind ∧ kind ≠ ""

/-- The record is a row, and this is its event. -/
structure IsRow (r : Record) (e : Event) : Prop where
  tickText : HasTick r
  tick : e.tick = Nat.ofDigitChars 10 (firstField r).toList 0
  kind : r.fields[1]? = some e.kind
  named : e.kind ≠ ""
  params : e.params = r.fields.drop 2
  line : e.line = r.line

/-- The header ends before this record. -/
def endsHeader : Except Undecodable Record → Bool
  | .ok r => HasTick r
  | .error _ => false

/-- The record is text and has one field, which is empty. -/
def isVoid : Except Undecodable Record → Bool
  | .ok r => r.fields = [""]
  | .error _ => false

/-- The records that should be rows. -/
def rowRecords (records : List (Except Undecodable Record)) : List (Except Undecodable Record) :=
  (records.dropWhile fun x => !endsHeader x).filter fun x => !isVoid x

/-- The record is wrong, given whether the header ended before it. -/
inductive Offends (begun : Bool) : Except Undecodable Record → TraceFault → Prop
  | undecodable (cause : Undecodable) :
      Offends begun (.error cause) (.malformedRow cause.line (.undecodable cause))
  | tick {r : Record} (row : begun = true) (filled : r.fields ≠ [""]) (without : ¬ HasTick r) :
      Offends begun (.ok r) (.invalidTick r.line (firstField r))
  | kind {r : Record} (tick : HasTick r) (without : ¬ HasKind r) :
      Offends begun (.ok r) (.missingKind r.line)

/-- The first record that is wrong has this fault. -/
def FirstOffence (begun : Bool) (records : List (Except Undecodable Record)) (fault : TraceFault) :
    Prop :=
  ∃ before x after, records = before ++ x :: after ∧
    (∀ good y rest, before = good ++ y :: rest →
      ∀ fault, ¬ Offends (begun || good.any endsHeader) y fault) ∧
    Offends (begun || before.any endsHeader) x fault

/-! ## Single records -/

variable {begun : Bool} {x : Except Undecodable Record} {r : Record} {e : Event}
  {fault : TraceFault} {records rest : List (Except Undecodable Record)} {done events : List Event}

theorem readTick?_eq_none_iff {s : String} : readTick? s = none ↔ ¬ TickText s.toList := by
  rw [Option.eq_none_iff_forall_ne_some]
  constructor
  · intro h htick
    exact h _ (readTick?_eq_some_iff.mpr ⟨htick, rfl⟩)
  · intro h tick htick
    exact h (readTick?_eq_some_iff.mp htick).1

/-- The header ends at the first record whose first field is a tick. -/
theorem startsRows_eq (r : Record) : startsRows r = decide (HasTick r) := by
  rw [startsRows, Bool.eq_iff_iff, decide_eq_true_eq, ← not_iff_not, Bool.not_eq_true,
    Option.isSome_eq_false_iff, Option.isNone_iff_eq_none]
  exact readTick?_eq_none_iff

theorem isBlankRecord_eq (r : Record) : isBlankRecord r = decide (r.fields = [""]) := by
  rw [Bool.eq_iff_iff, isBlankRecord, Bool.and_eq_true, decide_eq_true_iff, decide_eq_true_iff,
    decide_eq_true_iff, List.length_eq_one_iff, firstField]
  constructor
  · rintro ⟨⟨field, hfield⟩, hempty⟩
    rw [hfield] at hempty ⊢
    exact congrArg (fun field => [field]) hempty
  · intro h
    rw [h]
    exact ⟨⟨"", rfl⟩, rfl⟩

/-- An empty field is no tick. -/
theorem HasTick.filled (h : HasTick r) : r.fields ≠ [""] := by
  intro hvoid
  have htext : (firstField r).toList = [] := by
    rw [firstField, hvoid]
    rfl
  exact h.nonempty htext

/-- A tick and a kind are all that a record needs to be a row. -/
theorem exists_isRow_iff : (∃ e, IsRow r e) ↔ HasTick r ∧ HasKind r := by
  constructor
  · rintro ⟨e, h⟩
    exact ⟨h.tickText, e.kind, h.kind, h.named⟩
  · rintro ⟨htick, kind, hkind, hnamed⟩
    exact ⟨⟨r.line, _, kind, r.fields.drop 2⟩, htick, rfl, hkind, hnamed, rfl, rfl⟩

/-- A row is read as its event: the tick and the kind from the first two fields, the parameters from
the others. -/
theorem readRow_of_isRow (h : IsRow r e) : readRow r = .ok e := by
  have htick := readTick?_eq_some_iff.mpr ⟨h.tickText, h.tick.symm⟩
  have hkind := h.kind
  have hparams := h.params
  rw [readRow, htick]
  rcases hfields : r.fields with _ | ⟨first, _ | ⟨kind, params⟩⟩
  · rw [hfields] at hkind
    cases hkind
  · rw [hfields] at hkind
    cases hkind
  · rw [hfields] at hkind hparams
    obtain rfl : kind = e.kind := Option.some.inj hkind
    simp only [if_neg h.named, ← h.line]
    exact congrArg (fun p => Except.ok (Event.mk e.line e.tick e.kind p)) hparams.symm

/-- The fault names the line of the record and shows the field that is no tick. -/
theorem readRow_of_noTick (h : ¬ HasTick r) :
    readRow r = .error (.invalidTick r.line (firstField r)) := by
  rw [readRow, readTick?_eq_none_iff.mpr h]

/-- A kind that is empty is missing just as one that is not there. -/
theorem readRow_of_noKind (tick : HasTick r) (h : ¬ HasKind r) :
    readRow r = .error (.missingKind r.line) := by
  have hkind : ∀ kind, r.fields[1]? = some kind → kind = "" := fun kind hkind =>
    not_not.mp fun hne => h ⟨kind, hkind, hne⟩
  rw [readRow, readTick?_eq_some_iff.mpr ⟨tick, rfl⟩]
  rcases hfields : r.fields with _ | ⟨first, _ | ⟨kind, params⟩⟩
  · rfl
  · rfl
  · rw [hfields] at hkind
    exact if_pos (hkind kind rfl)

/-! ## What one record does to the reading -/

/-- A record of the header or of one empty field. -/
def Passed (begun : Bool) (r : Record) : Prop := r.fields = [""] ∨ begun = false ∧ ¬ HasTick r

theorem Passed.noTick (h : Passed begun r) : ¬ HasTick r := by
  rcases h with h | h
  · exact fun htick => htick.filled h
  · exact h.2

/-- A record is wrong, is passed over, or is a row. -/
theorem offends_or_passed_or_row (begun : Bool) (x : Except Undecodable Record) :
    (∃ fault, Offends begun x fault) ∨ ∃ r, x = .ok r ∧ (Passed begun r ∨ ∃ e, IsRow r e) := by
  cases x with
  | error cause => exact .inl ⟨_, .undecodable cause⟩
  | ok r =>
    by_cases htick : HasTick r
    · by_cases hkind : HasKind r
      · exact .inr ⟨r, rfl, .inr (exists_isRow_iff.mpr ⟨htick, hkind⟩)⟩
      · exact .inl ⟨_, .kind htick hkind⟩
    · by_cases hvoid : r.fields = [""]
      · exact .inr ⟨r, rfl, .inl (.inl hvoid)⟩
      · cases begun with
        | false => exact .inr ⟨r, rfl, .inl (.inr ⟨rfl, htick⟩)⟩
        | true => exact .inl ⟨_, .tick rfl hvoid htick⟩

/-- What is passed over is not wrong, whatever it holds. -/
theorem Passed.not_offends (h : Passed begun r) (fault : TraceFault) :
    ¬ Offends begun (.ok r) fault := by
  intro hoffends
  cases hoffends with
  | tick row filled without =>
    rcases h with hvoid | hheader
    · exact filled hvoid
    · exact Bool.noConfusion (row.symm.trans hheader.1)
  | kind tick => exact h.noTick tick

/-- A row is not wrong, in the header or after it. -/
theorem IsRow.not_offends (h : IsRow r e) (fault : TraceFault) :
    ¬ Offends begun (.ok r) fault := by
  intro hoffends
  cases hoffends with
  | tick _ _ without => exact without h.tickText
  | kind _ without => exact without ⟨e.kind, h.kind, h.named⟩

/-- A wrong record ends the reading with its fault. The rows before it and the records after it do
not matter. -/
theorem eventsFrom_of_offends (h : Offends begun x fault) (done : List Event)
    (rest : List (Except Undecodable Record)) :
    eventsFrom begun done (x :: rest) = .error fault := by
  cases h with
  | undecodable cause => rfl
  | @tick r row filled without =>
    rw [eventsFrom, startsRows_eq, isBlankRecord_eq, decide_eq_false filled, row,
      readRow_of_noTick without]
    rfl
  | @kind r tick without =>
    rw [eventsFrom, startsRows_eq, isBlankRecord_eq, decide_eq_false tick.filled,
      decide_eq_true tick, readRow_of_noKind tick without]
    cases begun <;> rfl

/-- A record that is passed over leaves the reading as it was. -/
theorem eventsFrom_of_passed (h : Passed begun r) (done : List Event)
    (rest : List (Except Undecodable Record)) :
    eventsFrom begun done (.ok r :: rest) = eventsFrom begun done rest := by
  rw [eventsFrom, startsRows_eq, isBlankRecord_eq, decide_eq_false h.noTick]
  cases begun with
  | false => rfl
  | true =>
    have hvoid : r.fields = [""] := h.resolve_right fun hheader => Bool.noConfusion hheader.1
    rw [decide_eq_true hvoid]
    rfl

/-- A row adds its event, and the header has ended. -/
theorem eventsFrom_of_isRow (h : IsRow r e) (begun : Bool) (done : List Event)
    (rest : List (Except Undecodable Record)) :
    eventsFrom begun done (.ok r :: rest) = eventsFrom true (e :: done) rest := by
  rw [eventsFrom, startsRows_eq, isBlankRecord_eq, decide_eq_false h.tickText.filled,
    decide_eq_true h.tickText, readRow_of_isRow h]
  cases begun <;> rfl

/-! ## All records -/

/-- The records that should be rows, given whether the header has ended. -/
def rowRecordsFrom (begun : Bool) (records : List (Except Undecodable Record)) :
    List (Except Undecodable Record) :=
  (if begun then records else records.dropWhile fun x => !endsHeader x).filter fun x => !isVoid x

/-- A record that is passed over is not among those that should be rows. -/
theorem rowRecordsFrom_of_passed (h : Passed begun r)
    (rest : List (Except Undecodable Record)) :
    rowRecordsFrom begun (.ok r :: rest) = rowRecordsFrom begun rest := by
  unfold rowRecordsFrom
  cases begun with
  | false =>
    have hheader : (!endsHeader (.ok r)) = true := by
      rw [endsHeader, decide_eq_false h.noTick]
      rfl
    rw [if_neg Bool.false_ne_true, if_neg Bool.false_ne_true,
      List.dropWhile_cons_of_pos (p := fun x => !endsHeader x) hheader]
  | true =>
    have hvoid : ¬ (!isVoid (.ok r)) = true := by
      rw [isVoid, decide_eq_true (h.resolve_right fun hheader => Bool.noConfusion hheader.1)]
      decide
    rw [if_pos rfl, if_pos rfl, List.filter_cons_of_neg (p := fun x => !isVoid x) hvoid]

/-- From the first tick on, a record that is not of one empty field should be a row. -/
theorem rowRecordsFrom_of_row (row : begun = true ∨ HasTick r) (filled : r.fields ≠ [""])
    (rest : List (Except Undecodable Record)) :
    rowRecordsFrom begun (.ok r :: rest) = .ok r :: rowRecordsFrom true rest := by
  have hvoid : (!isVoid (.ok r)) = true := by
    rw [isVoid, decide_eq_false filled]
    rfl
  unfold rowRecordsFrom
  cases begun with
  | false =>
    have hheader : ¬ (!endsHeader (.ok r)) = true := by
      rw [endsHeader, decide_eq_true (row.resolve_left Bool.false_ne_true)]
      decide
    rw [if_neg Bool.false_ne_true, if_pos rfl,
      List.dropWhile_cons_of_neg (p := fun x => !endsHeader x) hheader,
      List.filter_cons_of_pos (p := fun x => !isVoid x) hvoid]
  | true => rw [if_pos rfl, if_pos rfl, List.filter_cons_of_pos (p := fun x => !isVoid x) hvoid]

/-- A wrong record that is text should be a row and is none. -/
theorem Offends.not_rows (h : Offends begun x fault) (rest : List (Except Undecodable Record))
    (text : ∃ r, x = .ok r) (events : List Event) :
    ¬ List.Forall₂ (fun x e => ∃ r, x = .ok r ∧ IsRow r e) (rowRecordsFrom begun (x :: rest))
      events := by
  intro hrows
  cases h with
  | undecodable cause =>
    obtain ⟨r, hr⟩ := text
    cases hr
  | tick row filled without =>
    rw [rowRecordsFrom_of_row (.inl row) filled] at hrows
    obtain ⟨e, _, ⟨r, hr, hrow⟩, -⟩ := List.forall₂_cons_left_iff.mp hrows
    cases hr
    exact without hrow.tickText
  | kind tick without =>
    rw [rowRecordsFrom_of_row (.inr tick) tick.filled] at hrows
    obtain ⟨e, _, ⟨r, hr, hrow⟩, -⟩ := List.forall₂_cons_left_iff.mp hrows
    cases hr
    exact without ⟨e.kind, hrow.kind, hrow.named⟩

theorem forall_text_cons :
    (∀ x ∈ Except.ok r :: rest, ∃ r : Record, x = .ok r) ↔ ∀ x ∈ rest, ∃ r : Record, x = .ok r := by
  rw [List.forall_mem_cons]
  exact and_iff_right ⟨r, rfl⟩

/-- The records are read if all of them are text and each one that should be a row is one. Its event
comes behind those that are done. The induction is on the records, and each is wrong, passed over or
a row. -/
theorem eventsFrom_eq_ok_iff : eventsFrom begun done records = .ok events ↔
    (∀ x ∈ records, ∃ r, x = .ok r) ∧ ∃ read, events = done.reverse ++ read ∧
      List.Forall₂ (fun x e => ∃ r, x = .ok r ∧ IsRow r e) (rowRecordsFrom begun records) read := by
  induction records generalizing begun done with
  | nil =>
    have hnone : rowRecordsFrom begun [] = [] := by cases begun <;> rfl
    rw [hnone, eventsFrom, Except.ok.injEq]
    constructor
    · rintro rfl
      exact ⟨fun x hx => (List.not_mem_nil hx).elim, [], (List.append_nil _).symm, .nil⟩
    · rintro ⟨-, read, rfl, hread⟩
      cases hread
      exact (List.append_nil _).symm
  | cons x rest ih =>
    rcases offends_or_passed_or_row begun x with ⟨fault, hoffends⟩ | ⟨r, rfl, hpassed | ⟨e, hrow⟩⟩
    · rw [eventsFrom_of_offends hoffends]
      refine iff_of_false (fun h => by cases h) ?_
      rintro ⟨htext, read, -, hread⟩
      exact hoffends.not_rows rest (htext x List.mem_cons_self) read hread
    · rw [eventsFrom_of_passed hpassed, ih, rowRecordsFrom_of_passed hpassed, forall_text_cons]
    · rw [eventsFrom_of_isRow hrow, ih, forall_text_cons,
        rowRecordsFrom_of_row (.inr hrow.tickText) hrow.tickText.filled]
      refine and_congr_right fun _ => ⟨?_, ?_⟩
      · rintro ⟨read, rfl, hread⟩
        exact ⟨e :: read, by rw [List.reverse_cons, List.append_assoc]; rfl,
          .cons ⟨r, rfl, hrow⟩ hread⟩
      · rintro ⟨read, rfl, hread⟩
        obtain ⟨e', read', ⟨r', hr', hrow'⟩, hread', rfl⟩ := List.forall₂_cons_left_iff.mp hread
        cases hr'
        have heq : e = e' := Except.ok.inj ((readRow_of_isRow hrow).symm.trans
          (readRow_of_isRow hrow'))
        exact ⟨read', by rw [heq, List.reverse_cons, List.append_assoc]; rfl, hread'⟩

/-- A record that is not wrong may only end the header for those behind it. -/
theorem firstOffence_cons_of_fine (fine : ∀ fault, ¬ Offends begun x fault) :
    FirstOffence begun (x :: rest) fault ↔ FirstOffence (begun || endsHeader x) rest fault := by
  have hany : ∀ l, (begun || (x :: l).any endsHeader) =
      ((begun || endsHeader x) || l.any endsHeader) := fun l => by
    rw [List.any_cons, Bool.or_assoc]
  constructor
  · rintro ⟨before, y, after, hsplit, hearlier, hoffends⟩
    cases before with
    | nil =>
      obtain ⟨rfl, -⟩ := List.cons.inj hsplit
      rw [List.any_nil, Bool.or_false] at hoffends
      exact absurd hoffends (fine fault)
    | cons x' before =>
      obtain ⟨rfl, hrest⟩ := List.cons.inj hsplit
      rw [hany] at hoffends
      refine ⟨before, y, after, hrest, fun good z more hgood => ?_, hoffends⟩
      rw [← hany]
      exact hearlier (x :: good) z more (congrArg (x :: ·) hgood)
  · rintro ⟨before, y, after, rfl, hearlier, hoffends⟩
    refine ⟨x :: before, y, after, rfl, fun good z more hgood => ?_, ?_⟩
    · cases good with
      | nil =>
        obtain ⟨rfl, -⟩ := List.cons.inj hgood
        rw [List.any_nil, Bool.or_false]
        exact fine
      | cons x' good =>
        obtain ⟨rfl, hrest⟩ := List.cons.inj hgood
        rw [hany]
        exact hearlier good z more hrest
    · rw [hany]
      exact hoffends

theorem FirstOffence.of_offends (h : Offends begun x fault) :
    FirstOffence begun (x :: rest) fault := by
  refine ⟨[], x, rest, rfl, fun good y more hsplit => ?_, ?_⟩
  · exact absurd hsplit.symm (List.append_ne_nil_of_right_ne_nil good (List.cons_ne_nil y more))
  · rw [List.any_nil, Bool.or_false]
    exact h

theorem Passed.begun_or_endsHeader (h : Passed begun r) :
    (begun || endsHeader (.ok r)) = begun := by
  rw [endsHeader, decide_eq_false h.noTick, Bool.or_false]

/-- The first wrong record stops the reading. The induction is on the records before it, each of
which is passed over or is a row. -/
theorem eventsFrom_of_firstOffence (h : FirstOffence begun records fault) :
    eventsFrom begun done records = .error fault := by
  induction records generalizing begun done with
  | nil =>
    obtain ⟨before, x, after, hsplit, -⟩ := h
    exact absurd hsplit.symm (List.append_ne_nil_of_right_ne_nil before (List.cons_ne_nil x after))
  | cons x rest ih =>
    rcases offends_or_passed_or_row begun x with ⟨found, hfound⟩ | ⟨r, rfl, hpassed | ⟨e, hrow⟩⟩
    · obtain ⟨before, y, after, hsplit, hearlier, hoffends⟩ := h
      cases before with
      | nil =>
        obtain ⟨rfl, -⟩ := List.cons.inj hsplit
        rw [List.any_nil, Bool.or_false] at hoffends
        exact eventsFrom_of_offends hoffends done rest
      | cons x' before =>
        obtain ⟨rfl, -⟩ := List.cons.inj hsplit
        have hfine := hearlier [] x before rfl found
        rw [List.any_nil, Bool.or_false] at hfine
        exact absurd hfound hfine
    · rw [firstOffence_cons_of_fine hpassed.not_offends, hpassed.begun_or_endsHeader] at h
      rw [eventsFrom_of_passed hpassed, ih h]
    · rw [firstOffence_cons_of_fine hrow.not_offends, endsHeader, decide_eq_true hrow.tickText,
        Bool.or_true] at h
      rw [eventsFrom_of_isRow hrow, ih h]

/-- A reading that fails has come to a wrong record, and everything before it was passed over or was
a row. -/
theorem firstOffence_of_eventsFrom (h : eventsFrom begun done records = .error fault) :
    FirstOffence begun records fault := by
  induction records generalizing begun done with
  | nil => cases h
  | cons x rest ih =>
    rcases offends_or_passed_or_row begun x with ⟨found, hfound⟩ | ⟨r, rfl, hpassed | ⟨e, hrow⟩⟩
    · rw [eventsFrom_of_offends hfound] at h
      cases h
      exact .of_offends hfound
    · rw [eventsFrom_of_passed hpassed] at h
      rw [firstOffence_cons_of_fine hpassed.not_offends, hpassed.begun_or_endsHeader]
      exact ih h
    · rw [eventsFrom_of_isRow hrow] at h
      rw [firstOffence_cons_of_fine hrow.not_offends, endsHeader, decide_eq_true hrow.tickText,
        Bool.or_true]
      exact ih h

/-! ## Whole traces -/

theorem exists_forall₂_iff {α β : Type} {R : α → β → Prop} {l : List α} :
    (∃ l', List.Forall₂ R l l') ↔ ∀ a ∈ l, ∃ b, R a b := by
  induction l with
  | nil => exact iff_of_true ⟨[], .nil⟩ fun a ha => (List.not_mem_nil ha).elim
  | cons a l ih =>
    rw [List.forall_mem_cons, ← ih]
    constructor
    · rintro ⟨_, h⟩
      obtain ⟨b, l', hb, hl', -⟩ := List.forall₂_cons_left_iff.mp h
      exact ⟨⟨b, hb⟩, l', hl'⟩
    · rintro ⟨⟨b, hb⟩, l', hl'⟩
      exact ⟨b :: l', .cons hb hl'⟩

/-- The events are those of the records that should be rows, one for each, in their order. -/
theorem eventsOfRecords_eq_ok_iff : eventsOfRecords records = .ok events ↔
    (∀ x ∈ records, ∃ r, x = .ok r) ∧
      List.Forall₂ (fun x e => ∃ r, x = .ok r ∧ IsRow r e) (rowRecords records) events := by
  rw [eventsOfRecords, eventsFrom_eq_ok_iff]
  refine and_congr_right fun _ => ?_
  constructor
  · rintro ⟨read, rfl, hread⟩
    exact hread
  · exact fun h => ⟨events, rfl, h⟩

/-- A trace is read exactly if all its records are text and those behind the header that are not a
single empty field have a tick and a kind; then each of these is one event, in their order.
Otherwise the fault is that of the first record that is wrong: it is no text, or else has no tick,
or else no kind. -/
theorem eventsOfRecords_allOrNothing (records : List (Except Undecodable Record)) :
    ((∃ events, eventsOfRecords records = .ok events) ↔ (∀ x ∈ records, ∃ r, x = .ok r) ∧
        ∀ r, .ok r ∈ rowRecords records → HasTick r ∧ HasKind r) ∧
      (∀ events, eventsOfRecords records = .ok events ↔ (∀ x ∈ records, ∃ r, x = .ok r) ∧
        List.Forall₂ (fun x e => ∃ r, x = .ok r ∧ IsRow r e) (rowRecords records) events) ∧
      ∀ fault, eventsOfRecords records = .error fault ↔ FirstOffence false records fault := by
  refine ⟨?_, fun events => eventsOfRecords_eq_ok_iff,
    fun fault => ⟨firstOffence_of_eventsFrom, eventsFrom_of_firstOffence⟩⟩
  simp only [eventsOfRecords_eq_ok_iff, exists_and_left, exists_forall₂_iff]
  refine and_congr_right fun htext => ⟨fun h r hr => ?_, fun h x hx => ?_⟩
  · obtain ⟨e, r', hr', hrow⟩ := h _ hr
    cases hr'
    exact exists_isRow_iff.mp ⟨e, hrow⟩
  · obtain ⟨r, rfl⟩ := htext x ((List.dropWhile_sublist _).subset (List.mem_filter.mp hx).1)
    obtain ⟨e, hrow⟩ := exists_isRow_iff.mpr (h r hx)
    exact ⟨e, r, rfl, hrow⟩

/-- A number of more than 64 bits belongs to the header, and is wrong behind it. -/
example : eventsOfRecords [.ok ⟨1, ["18446744073709551616", "X"]⟩, .ok ⟨2, ["1", "A"]⟩,
    .ok ⟨3, ["18446744073709551616", "X"]⟩] =
    .error (.invalidTick 3 "18446744073709551616") := by decide +kernel

end ClusterTrace
