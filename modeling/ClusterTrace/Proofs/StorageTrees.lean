import ClusterTrace.Proofs.TextCuts
import ClusterTrace.Storage.Tree
import Mathlib.Data.List.Forall2
import Mathlib.Data.List.Lex
import Mathlib.Data.List.Nodup
import Mathlib.Data.Prod.Lex
import Mathlib.Data.String.Basic

/-!
# Trees of files and the paths in them

In a proper tree no directory lists a name twice, and no name could be taken for a step up or for
several steps. There the path of an entry leads to the entry, and what a path leads to does not
depend on the order in which the directories list their entries.
-/

namespace ClusterTrace

/-- A name that an entry of a directory can have. -/
structure Node.IsEntryName (name : String) : Prop where
  ne_empty : name ≠ ""
  ne_dot : name ≠ "."
  ne_dots : name ≠ ".."
  slash : '/' ∉ name.toList
  size : name.utf8ByteSize ≤ Node.maxNameSize

/-- No directory of the tree lists a name twice or one that no entry can have. -/
inductive Node.Proper : Node → Prop
  | file (content : Bytes) : Proper (file content)
  | directory {entries : List (String × Node)} (nodup : (entries.map Prod.fst).Nodup)
      (names : ∀ e ∈ entries, IsEntryName e.1) (below : ∀ e ∈ entries, Proper e.2) :
      Proper (directory entries)

/-- The same tree but for the order in which directories list their entries. -/
inductive Node.Relisted : Node → Node → Prop
  | file (content : Bytes) : Relisted (file content) (file content)
  | directory {entries entries' : List (String × Node)}
      (names : (entries.map Prod.fst).Perm (entries'.map Prod.fst))
      (below : ∀ e ∈ entries, ∀ e' ∈ entries', e.1 = e'.1 → Relisted e.2 e'.2) :
      Relisted (directory entries) (directory entries')

namespace Storage

/-- The same files and directories but for the order in which directories list their entries. -/
structure Relisted (s s' : Storage) : Prop where
  root : s.root.Relisted s'.root
  here : s.here = s'.here

/-- A regular file is at the path. -/
def IsFile (s : Storage) (path : String) : Prop := ∃ content, s.lookup path = .ok (.file content)

def IsDirectory (s : Storage) (path : String) : Prop :=
  ∃ entries, s.lookup path = .ok (.directory entries)

/-- A directory is at the path, and it has an entry of the name. -/
def HasEntry (s : Storage) (path name : String) : Prop :=
  ∃ entries, s.lookup path = .ok (.directory entries) ∧ name ∈ entries.map Prod.fst

end Storage

namespace Path

/-- The place of a part among others: two dots come before all names. -/
def rank (part : String) : Nat ×ₗ String := toLex (if part = ".." then (2, "") else (3, part))

/-- What paths are compared by: the place that they start from and their parts, without those that
stand for nothing. -/
def ranks (path : String) : List (Nat ×ₗ String) :=
  (if isAbsolute path then [toLex (0, "")]
    else if (parts path).head? = some "." then [toLex (1, "")] else []) ++
    ((parts path).filter fun part => !isVoid part).map rank

/-- One path comes before another, part by part. -/
def Precedes (p q : String) : Prop := List.Lex (· < ·) (ranks p) (ranks q)

end Path

/-! ## The path of an entry -/

namespace Node.IsEntryName

instance (name : String) : Decidable (IsEntryName name) :=
  decidable_of_iff (name ≠ "" ∧ name ≠ "." ∧ name ≠ ".." ∧ '/' ∉ name.toList ∧
      name.utf8ByteSize ≤ Node.maxNameSize)
    ⟨fun ⟨ne_empty, ne_dot, ne_dots, slash, size⟩ => ⟨ne_empty, ne_dot, ne_dots, slash, size⟩,
      fun h => ⟨h.ne_empty, h.ne_dot, h.ne_dots, h.slash, h.size⟩⟩

variable {name : String}

theorem isVoid_eq (h : IsEntryName name) : Path.isVoid name = false := by
  simp [Path.isVoid, h.ne_empty, h.ne_dot]

theorem parts_eq (h : IsEntryName name) : Path.parts name = [name] := by
  rw [Path.parts, Text.pieces_eq_splitOn, List.splitOn_eq_singleton h.slash, List.map_singleton,
    String.ofList_toList]

end Node.IsEntryName

namespace Path

theorem parts_ne_nil (path : String) : parts path ≠ [] := by
  rw [parts, Text.pieces_eq_splitOn, ne_eq, List.map_eq_nil_iff]
  exact List.splitOn_ne_nil _ _

/-- A slash cuts a path: the parts before it and behind it are cut apart on their own. -/
theorem parts_append_slash {path front back : String}
    (h : path.toList = front.toList ++ '/' :: back.toList) :
    parts path = parts front ++ parts back := by
  rw [parts, parts, parts, h]
  simp only [Text.pieces_eq_splitOn, List.splitOn_append_cons_self, List.map_append]

/-- A slash at the end of the directory's path adds an empty part, which the name replaces. -/
theorem exists_parts_join {path name : String} (hpath : path ≠ "")
    (hname : Node.IsEntryName name) : ∃ front, front ≠ [] ∧
      (parts path = front ∨ parts path = front ++ [""]) ∧
        parts (join path name) = front ++ [name] := by
  by_cases hslash : path.toList.getLast? = some '/'
  · obtain ⟨front, hfront⟩ := List.getLast?_eq_some_iff.mp hslash
    refine ⟨parts (String.ofList front), parts_ne_nil _, Or.inr ?_, ?_⟩
    · exact @parts_append_slash path (String.ofList front) "" (by simpa using hfront)
    · rw [← hname.parts_eq]
      refine parts_append_slash ?_
      simp [join, hpath, hfront]
  · refine ⟨parts path, parts_ne_nil _, Or.inl rfl, ?_⟩
    rw [← hname.parts_eq]
    refine parts_append_slash ?_
    simp [join, hpath, hslash]

/-- The path of an entry is absolute if that of its directory is. -/
theorem isAbsolute_join {path : String} (hpath : path ≠ "") (name : String) :
    isAbsolute (join path name) = isAbsolute path := by
  have hne : path.toList ≠ [] := by simpa using hpath
  obtain ⟨c, rest, hcons⟩ := List.exists_cons_of_ne_nil hne
  unfold isAbsolute join
  split
  · simp [hcons]
  · simp [hcons]

/-- The path of an entry has the ranks of its directory and one more, that of the name. -/
theorem ranks_join {path name : String} (hpath : path ≠ "") (hname : Node.IsEntryName name) :
    ranks (join path name) = ranks path ++ [toLex (3, name)] := by
  obtain ⟨front, hne, hparts, hjoin⟩ := exists_parts_join hpath hname
  have hhead : (parts (join path name)).head? = (parts path).head? := by
    rw [hjoin, List.head?_append_of_ne_nil _ hne]
    rcases hparts with hparts | hparts
    · rw [hparts]
    · rw [hparts, List.head?_append_of_ne_nil _ hne]
  have hfilter : (parts path).filter (fun part => !isVoid part) =
      front.filter fun part => !isVoid part := by
    rcases hparts with hparts | hparts
    · rw [hparts]
    · rw [hparts, List.filter_append]
      simp [isVoid]
  have hrank : rank name = toLex (3, name) := by rw [rank, if_neg hname.ne_dots]
  rw [ranks, ranks, isAbsolute_join hpath, hhead, hfilter, hjoin]
  simp [hname.isVoid_eq, hrank]

/-- The entries of a directory come in the order of their names. -/
theorem precedes_join {path a b : String} (hpath : path ≠ "") (ha : Node.IsEntryName a)
    (hb : Node.IsEntryName b) (h : a < b) : Precedes (join path a) (join path b) := by
  rw [Precedes, ranks_join hpath ha, ranks_join hpath hb]
  refine List.Lex.append_left _ (.rel ?_) _
  exact Prod.Lex.toLex_lt_toLex.mpr (Or.inr ⟨rfl, h⟩)

theorem Precedes.asymm {p q : String} (h : Precedes p q) : ¬ Precedes q p :=
  fun h' => (List.Lex.asymm (· < ·)).asymm _ _ h h'

end Path

/-! ## Trees -/

namespace Node

variable {entries : List (String × Node)} {here here' node : Node}
  {above above' : List Node} {part : String} {next : Node}

/-- With names that differ the entry that is found is the only one of the name. -/
theorem child?_eq_some_iff (nodup : (entries.map Prod.fst).Nodup) {name : String} :
    child? entries name = some node ↔ (name, node) ∈ entries := by
  constructor
  · intro h
    obtain ⟨e, he, rfl⟩ := Option.map_eq_some_iff.mp h
    have hname : e.1 = name := by simpa using List.find?_some he
    exact hname ▸ List.mem_of_find?_eq_some he
  · intro h
    have hsome : (entries.find? fun e => e.1 = name).isSome := by
      rw [List.find?_isSome]
      exact ⟨(name, node), h, by simp⟩
    obtain ⟨e, he⟩ := Option.isSome_iff_exists.mp hsome
    have hname : e.1 = name := by simpa using List.find?_some he
    have heq : e = (name, node) :=
      List.inj_on_of_nodup_map nodup (List.mem_of_find?_eq_some he) h hname
    rw [child?, he, heq]
    rfl

theorem Relisted.symm (h : Relisted here here') : Relisted here' here := by
  induction h with
  | file content => exact .file content
  | directory names below ih =>
    exact .directory names.symm fun e he e' he' heq => ih e' he' e he heq.symm

theorem Proper.singleton {name : String} (hname : IsEntryName name) (proper : node.Proper) :
    (Node.directory [(name, node)]).Proper := by
  refine .directory (List.nodup_singleton name) ?_ ?_
  · rintro e he
    rwa [List.mem_singleton.mp he]
  · rintro e he
    rwa [List.mem_singleton.mp he]

theorem Proper.relisted_self (proper : here.Proper) : Relisted here here := by
  induction proper with
  | file content => exact .file content
  | directory nodup names below ih =>
    refine .directory (List.Perm.refl _) fun e he e' he' heq => ?_
    obtain rfl := List.inj_on_of_nodup_map nodup he he' heq
    exact ih e he

/-- Another order of the entries of a directory is the same tree listed otherwise. -/
theorem Proper.relisted_of_perm {entries' : List (String × Node)}
    (proper : (Node.directory entries).Proper) (h : entries.Perm entries') :
    Relisted (Node.directory entries) (Node.directory entries') := by
  cases proper with
  | directory nodup names below =>
    refine .directory (h.map _) fun e he e' he' heq => ?_
    obtain rfl := List.inj_on_of_nodup_map nodup he (h.mem_iff.mpr he') heq
    exact (below e he).relisted_self

/-- The names of a listing are the same in every order, so they still differ. The induction is on
how the trees are related. -/
theorem Proper.of_relisted (proper : here.Proper) (h : Relisted here here') : here'.Proper := by
  induction h with
  | file content => exact .file content
  | @directory entries entries' names below ih =>
    cases proper with
    | directory nodup proper_names proper_below =>
      have hsame : ∀ e' ∈ entries', ∃ e ∈ entries, e.1 = e'.1 := by
        intro e' he'
        obtain ⟨e, he, heq⟩ := List.mem_map.mp (names.mem_iff.mpr (List.mem_map_of_mem he'))
        exact ⟨e, he, heq⟩
      refine .directory (names.nodup_iff.mp nodup) ?_ ?_
      · intro e' he'
        obtain ⟨e, he, heq⟩ := hsame e' he'
        exact heq ▸ proper_names e he
      · intro e' he'
        obtain ⟨e, he, heq⟩ := hsame e' he'
        exact ih e he e' he' heq (proper_below e he)

/-- Where one part leads, from a node and the directories above it to another one. -/
inductive Step : List Node → Node → String → List Node → Node → Prop
  | void {above : List Node} {entries : List (String × Node)} {part : String}
      (h : Path.isVoid part = true) : Step above (directory entries) part above (directory entries)
  | top {entries : List (String × Node)} :
      Step [] (directory entries) ".." [] (directory entries)
  | up {above : List Node} {up : Node} {entries : List (String × Node)} :
      Step (up :: above) (directory entries) ".." above up
  | down {above : List Node} {entries : List (String × Node)} {part : String} {node : Node}
      (hvoid : Path.isVoid part = false) (hdots : part ≠ "..")
      (hsize : part.utf8ByteSize ≤ maxNameSize) (hchild : child? entries part = some node) :
      Step above (directory entries) part (directory entries :: above) node

theorem follow_cons_directory (above : List Node) (entries : List (String × Node)) (part : String)
    (rest : List String) : follow above (directory entries) (part :: rest) =
      if Path.isVoid part then follow above (directory entries) rest
      else if part = ".." then
        match above with
        | [] => follow [] (directory entries) rest
        | up :: above => follow above up rest
      else if maxNameSize < part.utf8ByteSize then .error .nameTooLong
      else
        match child? entries part with
        | none => .error .notFound
        | some node => follow (directory entries :: above) node rest :=
  rfl

/-- Where a part leads the rest of the path goes on. -/
theorem Step.follow_eq (h : Step above here part above' next) (rest : List String) :
    follow above here (part :: rest) = follow above' next rest := by
  cases h with
  | void hvoid => rw [follow_cons_directory, if_pos hvoid]
  | top => rfl
  | up => rfl
  | down hvoid hdots hsize hchild =>
    rw [follow_cons_directory, hvoid, if_neg Bool.false_ne_true, if_neg hdots,
      if_neg (Nat.not_lt.mpr hsize), hchild]

/-- A path that leads somewhere makes a step with its first part. The steps are the cases in which a
part is not refused. -/
theorem exists_step {rest : List String} (h : follow above here (part :: rest) = .ok node) :
    ∃ above' next, Step above here part above' next := by
  cases here with
  | file content => cases h
  | directory entries =>
    rw [follow_cons_directory] at h
    by_cases hvoid : Path.isVoid part = true
    · exact ⟨above, directory entries, .void hvoid⟩
    rw [if_neg hvoid] at h
    by_cases hdots : part = ".."
    · subst hdots
      cases above with
      | nil => exact ⟨[], directory entries, .top⟩
      | cons up above => exact ⟨above, up, .up⟩
    rw [if_neg hdots] at h
    by_cases hsize : maxNameSize < part.utf8ByteSize
    · rw [if_pos hsize] at h
      cases h
    rw [if_neg hsize] at h
    cases hchild : child? entries part with
    | none => simp [hchild] at h
    | some next =>
      exact ⟨directory entries :: above, next,
        .down (Bool.not_eq_true _ ▸ hvoid) hdots (Nat.not_lt.mp hsize) hchild⟩

/-- A step leads to the same node in a tree listed otherwise. Directories that have been left may be
entered again, so they have to be proper as well. -/
theorem Step.relisted {others : List Node} (hstep : Step above here part above' next)
    (habove : List.Forall₂ (fun n n' => n.Proper ∧ Relisted n n') above others)
    (proper : here.Proper) (h : Relisted here here') :
    ∃ others' next', Step others here' part others' next' ∧
      List.Forall₂ (fun n n' => n.Proper ∧ Relisted n n') above' others' ∧
        next.Proper ∧ Relisted next next' := by
  cases hstep with
  | void hvoid =>
    cases h with
    | directory names below =>
      exact ⟨others, _, .void hvoid, habove, proper, .directory names below⟩
  | top =>
    cases habove
    cases h with
    | directory names below => exact ⟨[], _, .top, .nil, proper, .directory names below⟩
  | up =>
    cases habove with
    | cons hup habove =>
      cases h with
      | directory names below => exact ⟨_, _, .up, habove, hup.1, hup.2⟩
  | down hvoid hdots hsize hchild =>
    have hcons := List.Forall₂.cons ⟨proper, h⟩ habove
    cases h with
    | @directory _ entries' names below =>
      cases proper with
      | directory nodup _ proper_below =>
        have hmem := (child?_eq_some_iff nodup).mp hchild
        obtain ⟨e', he', heq⟩ := List.mem_map.mp (names.mem_iff.mp (List.mem_map_of_mem hmem))
        have heq' : (part, e'.2) = e' := Prod.ext heq.symm rfl
        have hchild' : child? entries' part = some e'.2 :=
          (child?_eq_some_iff (names.nodup_iff.mp nodup)).mpr (heq' ▸ he')
        exact ⟨_, _, .down hvoid hdots hsize hchild', hcons, proper_below _ hmem,
          below _ hmem e' he' heq.symm⟩

/-- A path leads to the same node in a tree listed otherwise. The induction is on the parts, with
all directories above the node, which a part may lead back to. -/
theorem Relisted.follow {others : List Node} {parts : List String}
    (habove : List.Forall₂ (fun n n' => n.Proper ∧ Relisted n n') above others)
    (proper : here.Proper) (h : Relisted here here')
    (hfollow : Node.follow above here parts = .ok node) :
    ∃ node', Node.follow others here' parts = .ok node' ∧ node.Proper ∧ Relisted node node' := by
  induction parts generalizing above others here here' with
  | nil =>
    obtain rfl := Except.ok.inj hfollow
    exact ⟨here', rfl, proper, h⟩
  | cons part rest ih =>
    obtain ⟨above', next, hstep⟩ := exists_step hfollow
    obtain ⟨others', next', hstep', habove', hproper, hnext⟩ := hstep.relisted habove proper h
    rw [hstep.follow_eq] at hfollow
    rw [hstep'.follow_eq]
    exact ih habove' hproper hnext hfollow

/-- Void parts lead nowhere from a directory, and from a file they lead to no directory. -/
theorem eq_of_follow_voids {voids : List String}
    (hvoids : ∀ part ∈ voids, Path.isVoid part = true)
    (h : follow above here voids = .ok (directory entries)) : here = directory entries := by
  induction voids with
  | nil => exact Except.ok.inj h
  | cons part rest ih =>
    cases here with
    | file content => cases h
    | directory _ =>
      rw [follow_cons_directory, if_pos (hvoids part List.mem_cons_self)] at h
      exact ih (fun part hpart => hvoids part (List.mem_cons_of_mem _ hpart)) h

/-- Steps that lead to a directory may be followed by others, also in the place of void ones. -/
theorem exists_follow_append {parts voids : List String}
    (hvoids : ∀ part ∈ voids, Path.isVoid part = true)
    (h : follow above here (parts ++ voids) = .ok (directory entries)) :
    ∃ above', ∀ rest,
      follow above here (parts ++ rest) = follow above' (directory entries) rest := by
  induction parts generalizing above here with
  | nil =>
    obtain rfl := eq_of_follow_voids hvoids h
    exact ⟨above, fun rest => rfl⟩
  | cons part parts ih =>
    obtain ⟨above', next, hstep⟩ := exists_step h
    simp only [List.cons_append, hstep.follow_eq] at h ⊢
    exact ih h

end Node

/-! ## Storage -/

namespace Storage

variable {s s' : Storage} {path name : String} {entries : List (String × Node)} {node : Node}

theorem lookup_eq_ok_iff : s.lookup path = .ok node ↔
    pathFault? path = none ∧ Node.follow [] s.root (s.absoluteParts path) = .ok node := by
  unfold lookup
  cases pathFault? path <;> simp

theorem ne_empty_of_lookup (h : s.lookup path = .ok node) : path ≠ "" := by
  rintro rfl
  cases (lookup_eq_ok_iff.mp h).1

theorem nul_not_mem_of_lookup (h : s.lookup path = .ok node) : '\x00' ∉ path.toList := by
  intro hmem
  have hfault := (lookup_eq_ok_iff.mp h).1
  rw [pathFault?, if_pos (List.contains_iff_mem.mpr hmem)] at hfault
  cases hfault

theorem absoluteParts_eq (s : Storage) (path : String) : s.absoluteParts path =
    (if Path.isAbsolute path then [] else s.here) ++ Path.parts path := by
  unfold absoluteParts
  split <;> rfl

/-- The path of an entry leads to the entry, unless it is too long or holds the character of number
zero. -/
theorem lookup_join_eq_ok_iff (h : s.lookup path = .ok (.directory entries))
    (hname : Node.IsEntryName name) : s.lookup (Path.join path name) = .ok node ↔
      pathFault? (Path.join path name) = none ∧ Node.child? entries name = some node := by
  have hpath := ne_empty_of_lookup h
  obtain ⟨front, -, hparts, hjoin⟩ := Path.exists_parts_join hpath hname
  obtain ⟨voids, hvoids, hparts⟩ : ∃ voids : List String,
      (∀ part ∈ voids, Path.isVoid part = true) ∧ Path.parts path = front ++ voids := by
    rcases hparts with hparts | hparts
    · exact ⟨[], by simp, by simpa using hparts⟩
    · exact ⟨[""], by simp [Path.isVoid], hparts⟩
  have hfollow := (lookup_eq_ok_iff.mp h).2
  rw [absoluteParts_eq, hparts, ← List.append_assoc] at hfollow
  obtain ⟨above, habove⟩ := Node.exists_follow_append hvoids hfollow
  have hsize : ¬ Node.maxNameSize < name.utf8ByteSize := Nat.not_lt.mpr hname.size
  rw [lookup_eq_ok_iff, absoluteParts_eq, Path.isAbsolute_join hpath, hjoin, ← List.append_assoc,
    habove, Node.follow_cons_directory, hname.isVoid_eq, if_neg Bool.false_ne_true,
    if_neg hname.ne_dots, if_neg hsize]
  cases Node.child? entries name with
  | none => simp
  | some node => simp [Node.follow]

/-- A directory is listed without the entries whose paths cannot be given to the system. -/
theorem list_eq_ok_iff {listed : List (String × Node)} : s.list path = .ok listed ↔
    ∃ entries, s.lookup path = .ok (.directory entries) ∧
      listed = entries.filter fun e => (pathFault? (Path.join path e.1)).isNone := by
  unfold list
  cases s.lookup path with
  | error fault => simp
  | ok node => cases node <;> simp [eq_comm]

/-! ## Proper trees -/

theorem proper_of_lookup (proper : s.root.Proper) (h : s.lookup path = .ok node) : node.Proper := by
  obtain ⟨_, -, hnode, -⟩ := proper.relisted_self.follow .nil proper (lookup_eq_ok_iff.mp h).2
  exact hnode

theorem Relisted.symm (h : s.Relisted s') : s'.Relisted s := ⟨h.root.symm, h.here.symm⟩

/-- What stands at a path is the same, listed otherwise. -/
theorem Relisted.lookup (h : s.Relisted s') (proper : s.root.Proper)
    (hlookup : s.lookup path = .ok node) :
    ∃ node', s'.lookup path = .ok node' ∧ node.Relisted node' := by
  obtain ⟨hpath, hfollow⟩ := lookup_eq_ok_iff.mp hlookup
  obtain ⟨node', hfollow', -, hnode⟩ := h.root.follow .nil proper hfollow
  refine ⟨node', lookup_eq_ok_iff.mpr ⟨hpath, ?_⟩, hnode⟩
  rw [absoluteParts_eq, ← h.here, ← absoluteParts_eq]
  exact hfollow'

theorem Relisted.isFile (h : s.Relisted s') (proper : s.root.Proper) (hfile : s.IsFile path) :
    s'.IsFile path := by
  obtain ⟨content, hcontent⟩ := hfile
  obtain ⟨node', hnode', hsame⟩ := h.lookup proper hcontent
  cases hsame with
  | file => exact ⟨content, hnode'⟩

/-- A directory has the entries that it has in the tree listed otherwise. -/
theorem Relisted.hasEntry (h : s.Relisted s') (proper : s.root.Proper)
    (hentry : s.HasEntry path name) : s'.HasEntry path name := by
  obtain ⟨entries, hentries, hmem⟩ := hentry
  obtain ⟨node', hnode', hsame⟩ := h.lookup proper hentries
  cases hsame with
  | @directory _ entries' names _ => exact ⟨entries', hnode', names.mem_iff.mp hmem⟩

theorem Relisted.isDirectory (h : s.Relisted s') (proper : s.root.Proper)
    (hdirectory : s.IsDirectory path) : s'.IsDirectory path := by
  obtain ⟨entries, hentries⟩ := hdirectory
  obtain ⟨node', hnode', hsame⟩ := h.lookup proper hentries
  cases hsame with
  | @directory _ entries' _ _ => exact ⟨entries', hnode'⟩

section Listed

variable {listed : List (String × Node)} (proper : s.root.Proper) (h : s.list path = .ok listed)

include h in
theorem isDirectory_of_list : s.IsDirectory path := by
  obtain ⟨entries, hentries, -⟩ := list_eq_ok_iff.mp h
  exact ⟨entries, hentries⟩

include proper

theorem isEntryName_of_hasEntry (hentry : s.HasEntry path name) : Node.IsEntryName name := by
  obtain ⟨entries, hentries, hmem⟩ := hentry
  obtain ⟨e, he, rfl⟩ := List.mem_map.mp hmem
  cases proper_of_lookup proper hentries with
  | directory nodup names below => exact names e he

include h

/-- No name is listed twice, since no directory has one twice. -/
theorem nodup_of_list : (listed.map Prod.fst).Nodup := by
  obtain ⟨entries, hentries, rfl⟩ := list_eq_ok_iff.mp h
  cases proper_of_lookup proper hentries with
  | directory nodup names below => exact nodup.sublist (List.filter_sublist.map _)

/-- A directory lists the entries that their paths lead to. -/
theorem mem_list_iff : (name, node) ∈ listed ↔
    s.HasEntry path name ∧ s.lookup (Path.join path name) = .ok node := by
  obtain ⟨entries, hentries, rfl⟩ := list_eq_ok_iff.mp h
  cases proper_of_lookup proper hentries with
  | directory nodup names below =>
    rw [List.mem_filter, Option.isNone_iff_eq_none]
    constructor
    · rintro ⟨hmem, hfault⟩
      have hchild := (Node.child?_eq_some_iff nodup).mpr hmem
      exact ⟨⟨entries, hentries, List.mem_map_of_mem hmem⟩,
        (lookup_join_eq_ok_iff hentries (names _ hmem)).mpr ⟨hfault, hchild⟩⟩
    · rintro ⟨hentry, hlookup⟩
      have hname := isEntryName_of_hasEntry proper hentry
      obtain ⟨hfault, hchild⟩ := (lookup_join_eq_ok_iff hentries hname).mp hlookup
      exact ⟨(Node.child?_eq_some_iff nodup).mp hchild, hfault⟩

theorem read_of_mem_list {content : Bytes} (hmem : (name, .file content) ∈ listed) :
    s.read (Path.join path name) = .ok content := by
  rw [read, ((mem_list_iff proper h).mp hmem).2]

end Listed

end Storage

end ClusterTrace
