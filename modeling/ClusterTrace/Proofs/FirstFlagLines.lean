import ClusterTrace.Experiment.Settings
import ClusterTrace.Proofs.FlagLines
import ClusterTrace.Proofs.TraceRows
import Mathlib.Logic.Relation

/-!
# The lines that decide the settings

The settings of a run are decided by the first line of each flag that the analysis understands:
whether they can be read, what they are, and which fault is reported. All other lines may come and
go, and lines of different flags may change places.
-/

namespace ClusterTrace

/-- The first of the lines that give the flag a value gives it this one. -/
def FirstGives (lines : List (List Char)) (key : String) (v : FlagValue) : Prop :=
  ∃ before line after, lines = before ++ line :: after ∧ Gives line key v ∧
    ∀ l ∈ before, ∀ w, ¬ Gives l key w

/-- No line gives the flag a value. -/
def Absent (lines : List (List Char)) (key : String) : Prop :=
  ∀ line ∈ lines, ∀ v, ¬ Gives line key v

/-- The values between the commas of a text, each without the white space around it. -/
def ListOf {α : Type} (read : String → Option α) (text : String) (xs : List α) : Prop :=
  List.Forall₂ (fun piece x => read (Settings.trimmed piece) = some x) (text.toList.splitOn ',') xs

/-- The number in a text, without the white space around it. -/
def NumberIn (text : String) (n : Nat) : Prop :=
  readNatural? (Settings.trimmed text.toList) = some n

/-- A flag and the values that can be read. -/
structure FlagGrammar where
  key : String
  Readable : String → Prop

namespace FlagGrammar

def rates : FlagGrammar := ⟨Settings.arrivalRatesKey, fun text => ∃ xs, ListOf Double.read? text xs⟩

def invocations : FlagGrammar :=
  ⟨Settings.invocationsKey, fun text => ∃ xs, ListOf readNatural? text xs⟩

def scheduler : FlagGrammar := ⟨Settings.schedulerKey, fun _ => True⟩

def randomSeed : FlagGrammar := ⟨Settings.randomSeedKey, fun text => ∃ n, NumberIn text n⟩

/-- The flags that the settings are read from, in the order in which they are checked. -/
def all : List FlagGrammar := [rates, invocations, scheduler, randomSeed]

example : all.map key = Settings.schema.map FlagSpec.key := rfl

/-- The first line of the flag gives it no value, which counts as the empty text, or one that cannot
be read. -/
def Bad (g : FlagGrammar) (lines : List (List Char)) (text : String) : Prop :=
  (FirstGives lines g.key .bare ∧ text = "") ∨
    (FirstGives lines g.key (.value text) ∧ ¬ g.Readable text)

end FlagGrammar

/-- The first bad one of some flags, and its value. -/
def FirstBad (lines : List (List Char)) (key text : String) : List FlagGrammar → Prop
  | [] => False
  | g :: rest => (g.key = key ∧ g.Bad lines text) ∨
      ((∀ t, ¬ g.Bad lines t) ∧ FirstBad lines key text rest)

/-- What the lines say about a flag that may be absent. -/
inductive FlagSays {α : Type} (lines : List (List Char)) (key : String)
    (reading : String → α → Prop) : Option α → Prop
  | absent (h : Absent lines key) : FlagSays lines key reading none
  | value {text : String} {x : α} (h : FirstGives lines key (.value text)) (hx : reading text x) :
      FlagSays lines key reading (some x)

/-- The settings are what the lines say. -/
structure Settings.FromLines (s : Settings) (lines : List (List Char)) : Prop where
  arrivalRates : FlagSays lines Settings.arrivalRatesKey (ListOf Double.read?) (some s.arrivalRates)
  invocations : FlagSays lines Settings.invocationsKey (ListOf readNatural?) s.invocations
  scheduler : FlagSays lines Settings.schedulerKey Eq s.scheduler
  randomSeed : FlagSays lines Settings.randomSeedKey NumberIn s.randomSeed

/-- The value that a line gives the flag. -/
def given? (key : String) (line : List Char) : Option FlagValue :=
  if Text.trim line ≠ [] ∧ (Flags.readLine (Text.trim line)).1 = key then
    some (Flags.readLine (Text.trim line)).2
  else none

/-- What a line gives a flag is a matter of its text without the white space around it. -/
theorem given?_eq_some_iff {key : String} {line : List Char} {v : FlagValue} :
    given? key line = some v ↔ Gives line key v := by
  rw [Flags.gives_iff, given?]
  by_cases h : Text.trim line ≠ [] ∧ (Flags.readLine (Text.trim line)).1 = key
  · rw [if_pos h, Option.some.injEq, Prod.ext_iff]
    simp [h]
  · rw [if_neg h, Prod.ext_iff]
    simp only [reduceCtorEq, false_iff]
    rintro ⟨hne, hkey, -⟩
    exact h ⟨hne, hkey⟩

/-- A line gives a flag nothing if it is blank or says something of another flag. -/
theorem given?_eq_none_iff {key : String} {line : List Char} :
    given? key line = none ↔ ∀ v, ¬ Gives line key v := by
  rw [Option.eq_none_iff_forall_ne_some]
  exact forall_congr' fun v => not_congr given?_eq_some_iff

theorem findSome?_eq_some_iff {lines : List (List Char)} {key : String} {v : FlagValue} :
    lines.findSome? (given? key) = some v ↔ FirstGives lines key v := by
  simp only [List.findSome?_eq_some_iff, given?_eq_some_iff, given?_eq_none_iff, FirstGives]

theorem findSome?_eq_none_iff {lines : List (List Char)} {key : String} :
    lines.findSome? (given? key) = none ↔ Absent lines key := by
  simp only [List.findSome?_eq_none_iff, given?_eq_none_iff, Absent]

/-- A flag is absent, or its first line gives it nothing, or its first line gives it a text. -/
theorem absent_or_firstGives (lines : List (List Char)) (key : String) : Absent lines key ∨
    FirstGives lines key .bare ∨ ∃ text, FirstGives lines key (.value text) := by
  cases hfirst : lines.findSome? (given? key) with
  | none => exact .inl (findSome?_eq_none_iff.mp hfirst)
  | some v =>
    have hgives := findSome?_eq_some_iff.mp hfirst
    cases v with
    | bare => exact .inr (.inl hgives)
    | value text => exact .inr (.inr ⟨text, hgives⟩)

theorem FirstGives.not_absent {lines : List (List Char)} {key : String} {v : FlagValue}
    (h : FirstGives lines key v) : ¬ Absent lines key := by
  rw [← findSome?_eq_some_iff] at h
  rw [← findSome?_eq_none_iff, h]
  exact Option.some_ne_none v

/-- The first value of a flag is what its first line gives. -/
theorem head?_get (text : String) (key : String) :
    ((Flags.parse text).get key).head? = (Text.lines text.toList).findSome? (given? key) := by
  have hcollects := Flags.collects_collect (Flags.said text)
  have hgiven : ∀ lines : List (List Char),
      (((((lines.map Text.trim).filter (· ≠ [])).map Flags.readLine).filter fun s => s.1 = key).map
        Prod.snd) = lines.filterMap (given? key) := by
    intro lines
    induction lines with
    | nil => rfl
    | cons line lines ih =>
      by_cases hne : Text.trim line ≠ []
      · by_cases hkey : (Flags.readLine (Text.trim line)).1 = key
        · simp only [ne_eq, decide_not] at ih
          simp [given?, hne, hkey, ih]
        · simp only [ne_eq, decide_not] at ih
          simp [given?, hne, hkey, ih]
      · simp only [ne_eq, decide_not] at ih
        simp [given?, hne, ih]
  rw [Flags.parse_eq_collect, hcollects.get, Flags.said, Flags.flagLines, hgiven,
    List.head?_filterMap]

/-- Nothing is said of a flag exactly if it is absent. A bad value is not taken for nothing. -/
theorem flagSays_none_iff {α : Type} {lines : List (List Char)} {key : String}
    (reading : String → α → Prop) : FlagSays lines key reading none ↔ Absent lines key := by
  constructor
  · intro h
    cases h with
    | absent habsent => exact habsent
  · exact .absent

theorem FlagGrammar.Bad.not_absent {g : FlagGrammar} {lines : List (List Char)} {t : String}
    (h : g.Bad lines t) : ¬ Absent lines g.key := by
  rcases h with ⟨hgives, -⟩ | ⟨hgives, -⟩
  · exact hgives.not_absent
  · exact hgives.not_absent

/-! ## Reading one flag -/

namespace Settings

/-- A list is read if each of its pieces is, and then it has the values of all pieces in their
order. -/
theorem readList?_eq_some_iff {α : Type} {read : String → Option α} {text : String} {xs : List α} :
    readList? read text = some xs ↔ ListOf read text xs := by
  rw [readList?, ListOf, Text.pieces_eq_splitOn]
  generalize text.toList.splitOn ',' = pieces
  induction pieces generalizing xs with
  | nil => simp [eq_comm]
  | cons piece pieces ih =>
    rw [List.mapM_cons, List.forall₂_cons_left_iff]
    simp only [Option.bind_eq_bind, Option.bind_eq_some_iff, ih, Option.pure_def, Option.some.injEq]
    constructor
    · rintro ⟨x, hx, rest, hrest, rfl⟩
      exact ⟨x, rest, hx, hrest, rfl⟩
    · rintro ⟨x, rest, hx, hrest, rfl⟩
      exact ⟨x, hx, rest, hrest, rfl⟩

/-- Of several values of a flag the first one counts, and it must have a text. -/
theorem firstValue_eq (flags : Flags) (key : String) : firstValue flags key =
    match (flags.get key).head? with
    | none => .ok none
    | some .bare => .error (.malformed key "")
    | some (.value text) => .ok (some text) := by
  unfold firstValue
  cases flags.get key with
  | nil => rfl
  | cons v rest => cases v <;> rfl

section ReadFlag

variable {α : Type} {read : String → Option α} {text key : String}

/-- The first line of the flag is all that is looked at. -/
theorem readFlag_eq (flags : Flags) (key : String) (read : String → Option α) :
    readFlag flags key read =
      match (flags.get key).head? with
      | none => .ok none
      | some .bare => .error (.malformed key "")
      | some (.value text) =>
        match read text with
        | some x => .ok (some x)
        | none => .error (.malformed key text) := by
  rw [readFlag, firstValue_eq]
  cases (flags.get key).head? with
  | none => rfl
  | some v => cases v <;> rfl

theorem readFlag_of_absent (h : Absent (Text.lines text.toList) key) :
    readFlag (Flags.parse text) key read = .ok none := by
  rw [readFlag_eq, head?_get, findSome?_eq_none_iff.mpr h]

theorem readFlag_of_bare (h : FirstGives (Text.lines text.toList) key .bare) :
    readFlag (Flags.parse text) key read = .error (.malformed key "") := by
  rw [readFlag_eq, head?_get, findSome?_eq_some_iff.mpr h]

/-- A text that can be read is the value, whatever later lines say. -/
theorem readFlag_of_read {t : String} {x : α}
    (h : FirstGives (Text.lines text.toList) key (.value t)) (hread : read t = some x) :
    readFlag (Flags.parse text) key read = .ok (some x) := by
  rw [readFlag_eq, head?_get, findSome?_eq_some_iff.mpr h]
  simp only [hread]

/-- A text that cannot be read is reported as a whole, also if only a piece of it is at fault. -/
theorem readFlag_of_unread {t : String}
    (h : FirstGives (Text.lines text.toList) key (.value t)) (hread : read t = none) :
    readFlag (Flags.parse text) key read = .error (.malformed key t) := by
  rw [readFlag_eq, head?_get, findSome?_eq_some_iff.mpr h]
  simp only [hread]

/-- What is read for a flag is what the lines say of it. -/
theorem readFlag_eq_ok_iff {x : Option α} : readFlag (Flags.parse text) key read = .ok x ↔
    FlagSays (Text.lines text.toList) key (fun t a => read t = some a) x := by
  constructor
  · intro h
    rcases absent_or_firstGives (Text.lines text.toList) key with habsent | hbare | ⟨t, hvalue⟩
    · rw [readFlag_of_absent habsent, Except.ok.injEq] at h
      exact h ▸ .absent habsent
    · rw [readFlag_of_bare hbare] at h
      cases h
    · cases hread : read t with
      | none =>
        rw [readFlag_of_unread hvalue hread] at h
        cases h
      | some a =>
        rw [readFlag_of_read hvalue hread, Except.ok.injEq] at h
        exact h ▸ .value hvalue hread
  · intro h
    cases h with
    | absent habsent => exact readFlag_of_absent habsent
    | value hvalue hread => exact readFlag_of_read hvalue hread

/-- The fault names the flag and has the text of its first line. -/
theorem readFlag_eq_error_iff {fault : SettingsFault} :
    readFlag (Flags.parse text) key read = .error fault ↔ ∃ t, fault = .malformed key t ∧
      (⟨key, fun t => ∃ a, read t = some a⟩ : FlagGrammar).Bad (Text.lines text.toList) t := by
  constructor
  · intro h
    rcases absent_or_firstGives (Text.lines text.toList) key with habsent | hbare | ⟨t, hvalue⟩
    · rw [readFlag_of_absent habsent] at h
      cases h
    · rw [readFlag_of_bare hbare, Except.error.injEq] at h
      exact ⟨"", h.symm, .inl ⟨hbare, rfl⟩⟩
    · cases hread : read t with
      | none =>
        rw [readFlag_of_unread hvalue hread, Except.error.injEq] at h
        exact ⟨t, h.symm, .inr ⟨hvalue, by simp [hread]⟩⟩
      | some a =>
        rw [readFlag_of_read hvalue hread] at h
        cases h
  · rintro ⟨t, rfl, ⟨hbare, rfl⟩ | ⟨hvalue, hunread⟩⟩
    · exact readFlag_of_bare hbare
    · refine readFlag_of_unread hvalue ?_
      rw [Option.eq_none_iff_forall_ne_some]
      exact fun a hread => hunread ⟨a, hread⟩

/-- A flag can be read exactly if it is not bad. -/
theorem exists_readFlag_iff : (∃ x, readFlag (Flags.parse text) key read = .ok x) ↔ ∀ t,
    ¬ (⟨key, fun t => ∃ a, read t = some a⟩ : FlagGrammar).Bad (Text.lines text.toList) t := by
  rw [← forall_ne_error_iff]
  simp only [ne_eq, readFlag_eq_error_iff]
  constructor
  · intro h t hbad
    exact h (.malformed key t) ⟨t, rfl, hbad⟩
  · rintro h fault ⟨t, rfl, hbad⟩
    exact h t hbad

theorem require_eq_ok_iff {x : Option α} {a : α} : require key x = .ok a ↔ x = some a := by
  cases x <;> simp [require]

theorem require_eq_error_iff {x : Option α} {fault : SettingsFault} :
    require key x = .error fault ↔ x = none ∧ fault = .missing key := by
  cases x <;> simp [require, eq_comm]

/-- A flag that must be there has one more fault, which is reported if there is no line of it. -/
theorem required_eq_error_iff {fault : SettingsFault} :
    (readFlag (Flags.parse text) key read).bind (require key) = .error fault ↔
      (fault = .missing key ∧ Absent (Text.lines text.toList) key) ∨ ∃ t, fault = .malformed key t ∧
        (⟨key, fun t => ∃ a, read t = some a⟩ : FlagGrammar).Bad (Text.lines text.toList) t := by
  simp only [bind_eq_error_iff, require_eq_error_iff, readFlag_eq_error_iff, readFlag_eq_ok_iff]
  constructor
  · rintro (hbad | ⟨_, habsent, rfl, rfl⟩)
    · exact .inr hbad
    · exact .inl ⟨rfl, (flagSays_none_iff _).mp habsent⟩
  · rintro (⟨rfl, habsent⟩ | hbad)
    · exact .inr ⟨_, .absent habsent, rfl, rfl⟩
    · exact .inl hbad

/-- A flag that must be there can be read exactly if it is there and not bad. -/
theorem exists_required_iff :
    (∃ a, (readFlag (Flags.parse text) key read).bind (require key) = .ok a) ↔
      ¬ Absent (Text.lines text.toList) key ∧ ∀ t,
        ¬ (⟨key, fun t => ∃ a, read t = some a⟩ : FlagGrammar).Bad (Text.lines text.toList) t := by
  rw [← forall_ne_error_iff]
  simp only [ne_eq, required_eq_error_iff, not_or]
  constructor
  · intro h
    exact ⟨fun habsent => (h _).1 ⟨rfl, habsent⟩, fun t hbad => (h _).2 ⟨t, rfl, hbad⟩⟩
  · rintro ⟨hnot, hbad⟩ fault
    exact ⟨fun h => hnot h.2, fun ⟨t, _, h⟩ => hbad t h⟩

end ReadFlag

/-! ## Reading all flags -/

/-- The settings that are read keep all flags and have what the lines say of the four that are
known. -/
theorem parse_eq_ok_iff {text : String} {s : Settings} : parse text = .ok s ↔
    s.flags = Flags.parse text ∧ s.FromLines (Text.lines text.toList) := by
  simp only [parse, ofFlags, bind, bind_eq_ok_iff, require_eq_ok_iff, readFlag_eq_ok_iff,
    readList?_eq_some_iff, Option.some.injEq, pure, Except.pure, Except.ok.injEq]
  constructor
  · rintro ⟨rates, ⟨_, hrates, rfl⟩, counts, hcounts, scheduler, hscheduler, seed, hseed, rfl⟩
    exact ⟨rfl, hrates, hcounts, hscheduler, hseed⟩
  · rintro ⟨hflags, hrates, hcounts, hscheduler, hseed⟩
    refine ⟨_, ⟨_, hrates, rfl⟩, _, hcounts, _, hscheduler, _, hseed, ?_⟩
    rw [← hflags]

/-- The first bad flag is the first one of a list if that is bad, and else the first bad one of the
rest. -/
theorem exists_firstBad_cons_iff {lines : List (List Char)} {g : FlagGrammar}
    {rest : List FlagGrammar} {fault : SettingsFault} :
    (∃ key t, fault = .malformed key t ∧ FirstBad lines key t (g :: rest)) ↔
      (∃ t, fault = .malformed g.key t ∧ g.Bad lines t) ∨
        ((∀ t, ¬ g.Bad lines t) ∧
          ∃ key t, fault = .malformed key t ∧ FirstBad lines key t rest) := by
  constructor
  · rintro ⟨key, t, rfl, ⟨rfl, hbad⟩ | ⟨hnone, hrest⟩⟩
    · exact .inl ⟨t, rfl, hbad⟩
    · exact .inr ⟨hnone, key, t, rfl, hrest⟩
  · rintro (⟨t, rfl, hbad⟩ | ⟨hnone, key, t, rfl, hrest⟩)
    · exact ⟨g.key, t, rfl, .inl ⟨rfl, hbad⟩⟩
    · exact ⟨key, t, rfl, .inr ⟨hnone, hrest⟩⟩

/-- Each flag is read only if those before it could be. -/
theorem parse_eq_error_iff {text : String} {fault : SettingsFault} :
    parse text = .error fault ↔
      (fault = .missing arrivalRatesKey ∧ Absent (Text.lines text.toList) arrivalRatesKey) ∨
        (¬ Absent (Text.lines text.toList) arrivalRatesKey ∧
          ∃ key t, fault = .malformed key t ∧
            FirstBad (Text.lines text.toList) key t FlagGrammar.all) := by
  have hnone : ¬ ∃ key t, fault = .malformed key t ∧
      FirstBad (Text.lines text.toList) key t [] := by
    rintro ⟨key, t, -, hbad⟩
    exact hbad
  have hrates : (∃ t, fault = .malformed arrivalRatesKey t ∧
      FlagGrammar.rates.Bad (Text.lines text.toList) t) →
      ¬ Absent (Text.lines text.toList) arrivalRatesKey := by
    rintro ⟨t, -, hbad⟩
    exact hbad.not_absent
  rw [parse, ofFlags]
  simp only [bind]
  generalize hread : (readFlag (Flags.parse text) arrivalRatesKey (readList? Double.read?)).bind
    (require arrivalRatesKey) = rates
  simp only [bind_eq_error_iff, exists_and_right, pure, Except.pure, reduceCtorEq, and_false,
    exists_false, or_false]
  simp only [← hread, required_eq_error_iff, exists_required_iff, exists_readFlag_iff,
    readFlag_eq_error_iff, readList?_eq_some_iff, Option.some.injEq, exists_eq', FlagGrammar.all,
    exists_firstBad_cons_iff, hnone, and_false, or_false]
  simp only [FlagGrammar.rates, FlagGrammar.invocations, FlagGrammar.scheduler,
    FlagGrammar.randomSeed, NumberIn] at hrates ⊢
  constructor
  · rintro ((hmissing | hbad) | ⟨⟨hpresent, hgood⟩, hrest⟩)
    · exact .inl hmissing
    · exact .inr ⟨hrates hbad, .inl hbad⟩
    · exact .inr ⟨hpresent, .inr ⟨hgood, hrest⟩⟩
  · rintro (hmissing | ⟨hpresent, hbad | ⟨hgood, hrest⟩⟩)
    · exact .inl (.inl hmissing)
    · exact .inl (.inr hbad)
    · exact .inr ⟨⟨hpresent, hgood⟩, hrest⟩

end Settings

/-! ## Changes of the lines -/

end ClusterTrace
