import Mathlib.Data.List.Nodup
import ZimaControl.Lib.Posix

/-!
# Directories, files and links

A file system is a finite tree of directories, regular files, symbolic links and other entries. A
host looks a path up part by part; a link on the way is replaced by the parts of its target, for a
limited number of links (`FileTree.lookUp`). A path leads to a location without links, the real
path. On the way to a directory empty parts and `.` do not matter (`lookUp_filter`).
-/

namespace ZimaControl

open List Posix Posix

/-- An entry of a file system. -/
inductive FileTree
  | directory (entries : List (JsString × FileTree))
  | file (size : ℕ)
  | link (target : JsString)
  | other

/-- The errors of a file system. -/
inductive Errno
  | enoent
  | enotdir
  | eloop
  | other (code : JsString)
  deriving DecidableEq

namespace FileTree

/-! ## Entries -/

/-- What is at a location. -/
def get : FileTree → List JsString → Option FileTree
  | t, [] => some t
  | directory entries, name :: rest =>
    (entries.find? (·.1 = name)).bind fun entry => entry.2.get rest
  | _, _ :: _ => none

/-- A directory. -/
def isDirectory : FileTree → Bool
  | directory _ => true
  | _ => false

/-- A symbolic link. -/
def isLink : FileTree → Bool
  | link _ => true
  | _ => false

theorem isDirectory_iff {t : FileTree} : t.isDirectory = true ↔ ∃ entries, t = directory entries := by
  cases t <;> simp [isDirectory]

theorem isLink_iff {t : FileTree} : t.isLink = true ↔ ∃ target, t = link target := by
  cases t <;> simp [isLink]

/-- A part that names an entry. -/
def isName (segment : JsString) : Bool :=
  segment ≠ [] && segment ≠ js "." && segment ≠ js ".." && unit '/' ∉ segment

mutual

/-- The entries of each directory have names, and different ones. -/
def wellFormed : FileTree → Bool
  | directory entries => decide (entries.map (·.1)).Nodup && wellFormedEntries entries
  | _ => true

/-- Entries of a directory that have names. -/
def wellFormedEntries : List (JsString × FileTree) → Bool
  | [] => true
  | entry :: rest => isName entry.1 && wellFormed entry.2 && wellFormedEntries rest

end

mutual

/-- The locations of the directories. -/
def directories : FileTree → List (List JsString)
  | directory entries => [] :: directoriesOf entries
  | _ => []

/-- The locations of the directories below entries. -/
def directoriesOf : List (JsString × FileTree) → List (List JsString)
  | [] => []
  | entry :: rest => entry.2.directories.map (entry.1 :: ·) ++ directoriesOf rest

end

variable {t t' : FileTree} {loc : List JsString}

/-- A location below another. -/
theorem get_append (t : FileTree) (a b : List JsString) :
    t.get (a ++ b) = (t.get a).bind fun t' => t'.get b := by
  induction a generalizing t with
  | nil => simp [get]
  | cons name a ih =>
    cases t with
    | directory entries =>
      rw [cons_append, get, get]
      cases entries.find? (·.1 = name) with
      | none => rfl
      | some entry => exact ih entry.2
    | _ => rfl

variable {segment : JsString}

/-- These are the names of the library of paths. -/
theorem isName_iff : isName segment = true ↔ IsName segment := by
  unfold isName
  simp only [Bool.and_eq_true, decide_eq_true_eq]
  constructor
  · intro h
    exact ⟨h.1.1.1, h.1.1.2, h.1.2, h.2⟩
  · intro h
    exact ⟨⟨⟨h.ne_nil, h.ne_dot⟩, h.ne_dots⟩, h.noSlash⟩

variable {entries : List (JsString × FileTree)} {name : JsString} {entry : JsString × FileTree}

/-- An entry that is found under a name has it. -/
theorem name_of_find (h : entries.find? (·.1 = name) = some entry) : entry.1 = name := by
  have heq := find?_some h
  exact of_decide_eq_true heq

/-- The entries of a well-formed directory. -/
theorem wellFormedEntries_iff : wellFormedEntries entries = true ↔
      ∀ entry ∈ entries, IsName entry.1 ∧ entry.2.wellFormed = true := by
  induction entries with
  | nil => simp [wellFormedEntries]
  | cons entry rest ih =>
    rw [wellFormedEntries, Bool.and_eq_true, Bool.and_eq_true, isName_iff, ih, forall_mem_cons]

/-- What is below a well-formed tree is well-formed, and its location made of names. -/
theorem wellFormed_get (h : t.wellFormed = true) (hget : t.get loc = some t') :
    t'.wellFormed = true ∧ ∀ name ∈ loc, IsName name := by
  induction loc generalizing t with
  | nil =>
    cases hget
    exact ⟨h, fun _ hmem => absurd hmem not_mem_nil⟩
  | cons name loc ih =>
    cases t with
    | directory entries =>
      obtain ⟨entry, hentry, hrest⟩ := Option.bind_eq_some_iff.mp hget
      rw [wellFormed, Bool.and_eq_true, wellFormedEntries_iff] at h
      obtain ⟨hname, hbelow⟩ := h.2 entry (mem_of_find?_eq_some hentry)
      rw [name_of_find hentry] at hname
      exact (ih hbelow hrest).imp_right fun hnames => forall_mem_cons.mpr ⟨hname, hnames⟩
    | _ => cases hget

/-- The entries of a well-formed directory are found under their names. -/
theorem get_entry_iff (h : t.wellFormed = true) (hloc : t.get loc = some (directory entries)) :
    entry ∈ entries ↔ t.get (loc ++ [entry.1]) = some entry.2 := by
  have hwell := (wellFormed_get h hloc).1
  rw [wellFormed, Bool.and_eq_true, decide_eq_true_eq] at hwell
  have hget : t.get (loc ++ [entry.1]) = (entries.find? (·.1 = entry.1)).map (·.2) := by
    rw [get_append, hloc, Option.bind_some, get]
    cases entries.find? (·.1 = entry.1) with
    | none => rfl
    | some found => rw [Option.bind_some, get, Option.map_some]
  rw [hget]
  constructor
  · intro hmem
    -- The names are different, so the first entry of this name is this one.
    cases hfind : entries.find? (·.1 = entry.1) with
    | none => exact absurd (find?_eq_none.mp hfind entry hmem) (by simp)
    | some found =>
      have hname := name_of_find hfind
      have hsame := inj_on_of_nodup_map hwell.1 (mem_of_find?_eq_some hfind) hmem hname
      rw [Option.map_some, hsame]
  · intro hfound
    obtain ⟨found, hfind, htree⟩ := Option.map_eq_some_iff.mp hfound
    have hname := name_of_find hfind
    have hsame : found = entry := Prod.ext hname htree
    exact hsame ▸ mem_of_find?_eq_some hfind

/-- Each directory is among the directories. -/
theorem mem_directories (h : (t.get loc).any isDirectory = true) : loc ∈ t.directories := by
  induction loc generalizing t with
  | nil =>
    cases t with
    | directory entries => exact mem_cons_self
    | _ => cases h
  | cons name loc ih =>
    cases t with
    | directory entries =>
      obtain ⟨t', hget, hdirectory⟩ := (Option.any_eq_true _ _).mp h
      obtain ⟨entry, hfind, hget⟩ := Option.bind_eq_some_iff.mp hget
      have hname := name_of_find hfind
      have hbelow : name :: loc ∈ entry.2.directories.map (entry.1 :: ·) :=
        mem_map.mpr ⟨loc, ih (by rw [hget]; exact hdirectory), by rw [hname]⟩
      have hall : ∀ (list : List (JsString × FileTree)), entry ∈ list →
          name :: loc ∈ directoriesOf list := by
        intro list hmem
        induction list with
        | nil => exact absurd hmem not_mem_nil
        | cons first rest ihlist =>
          rw [directoriesOf, mem_append]
          obtain rfl | hmem := mem_cons.mp hmem
          · exact .inl hbelow
          · exact .inr (ihlist hmem)
      exact mem_cons_of_mem _ (hall entries (mem_of_find?_eq_some hfind))
    | _ => cases h

/-! ## Looking a path up -/

/-- One path, part by part; `onLink` goes on where a link leads. -/
def follow (t : FileTree) (onLink : List JsString → List JsString → Except Errno (List JsString)) :
    List JsString → List JsString → Except Errno (List JsString)
  | current, [] => .ok current
  | current, segment :: rest =>
    if (t.get current).any isDirectory = false then .error .enotdir
    else if segment = [] ∨ segment = js "." then follow t onLink current rest
    else if segment = js ".." then follow t onLink current.dropLast rest
    else
      match t.get (current ++ [segment]) with
      | none => .error .enoent
      | some (link target) =>
        onLink (if isAbsolute target then [] else current) (segments target ++ rest)
      | some _ => follow t onLink (current ++ [segment]) rest

/-- Where a path leads, over a limited number of links. -/
def lookUp (t : FileTree) : ℕ → List JsString → List JsString → Except Errno (List JsString)
  | 0 => t.follow fun _ _ => .error .eloop
  | n + 1 => t.follow (lookUp t n)

variable {onLink : List JsString → List JsString → Except Errno (List JsString)}

/-- Empty parts and `.` do not matter on the way to a directory. -/
theorem follow_filter (hloc : (t.get loc).any isDirectory = true)
    (hlink : ∀ current segments, onLink current segments = .ok loc ↔
      onLink current (segments.filter matters) = .ok loc) (current segments : List JsString) :
    t.follow onLink current segments = .ok loc ↔
      t.follow onLink current (segments.filter matters) = .ok loc := by
  induction segments generalizing current with
  | nil => rfl
  | cons segment rest ih =>
    by_cases hdirectory : (t.get current).any isDirectory = false
    · -- Behind something else than a directory there is nothing, and `loc` is a directory.
      have hne : current ≠ loc := by
        intro heq
        rw [heq, hloc] at hdirectory
        cases hdirectory
      rw [follow, if_pos hdirectory]
      constructor
      · intro h
        cases h
      intro h
      exfalso
      cases hfilter : (segment :: rest).filter matters with
      | nil =>
        rw [hfilter, follow] at h
        exact hne (Except.ok.inj h)
      | cons segment' rest' =>
        rw [hfilter, follow, if_pos hdirectory] at h
        cases h
    · rw [follow, if_neg hdirectory]
      by_cases hskip : segment = [] ∨ segment = js "."
      · have hmatters : matters segment = false := by
          obtain rfl | rfl := hskip <;> decide
        rw [if_pos hskip, filter_cons_of_neg (by rw [hmatters]; decide)]
        exact ih current
      · have hmatters : matters segment = true := by
          obtain ⟨hnil, hdot⟩ := not_or.mp hskip
          simp [matters, hnil, hdot]
        rw [if_neg hskip, filter_cons_of_pos hmatters, follow, if_neg hdirectory, if_neg hskip]
        by_cases hdots : segment = js ".."
        · rw [if_pos hdots, if_pos hdots]
          exact ih _
        rw [if_neg hdots, if_neg hdots]
        split
        · rfl
        · rw [hlink, hlink _ (_ ++ rest.filter matters), filter_append, filter_append,
            filter_filter]
          simp
        · exact ih _

/-- Nor do they when links are followed. -/
theorem lookUp_filter (hloc : (t.get loc).any isDirectory = true) (n : ℕ)
    (current segments : List JsString) :
    t.lookUp n current segments = .ok loc ↔
      t.lookUp n current (segments.filter matters) = .ok loc := by
  induction n generalizing current segments with
  | zero => exact follow_filter hloc (fun _ _ => by simp) current segments
  | succ n ih => exact follow_filter hloc ih current segments

/-! ## Real locations -/

/-- A location that exists and is not a link. -/
def IsReal (t : FileTree) (loc : List JsString) : Prop :=
  ∃ t', t.get loc = some t' ∧ t'.isLink = false

/-- What is above something that exists is a directory. -/
theorem isDirectory_of_get_append {rest : List JsString} (h : t.get (loc ++ name :: rest) = some t') :
    (t.get loc).any isDirectory = true := by
  rw [get_append] at h
  obtain ⟨above, hloc, hbelow⟩ := Option.bind_eq_some_iff.mp h
  rw [hloc]
  cases above with
  | directory entries => rfl
  | _ => cases hbelow

/-- A directory is real. -/
theorem isReal_of_isDirectory (h : (t.get loc).any isDirectory = true) : t.IsReal loc := by
  obtain ⟨t', hloc, hdirectory⟩ := (Option.any_eq_true _ _).mp h
  obtain ⟨entries, rfl⟩ := isDirectory_iff.mp hdirectory
  exact ⟨_, hloc, rfl⟩

/-- The directory above a real location is real. -/
theorem isReal_dropLast (h : t.IsReal loc) : t.IsReal loc.dropLast := by
  obtain ⟨t', hget, hlink⟩ := h
  rcases eq_nil_or_concat loc with rfl | ⟨front, name, rfl⟩
  · exact ⟨t', hget, hlink⟩
  rw [concat_eq_append] at hget ⊢
  rw [dropLast_concat]
  exact isReal_of_isDirectory (isDirectory_of_get_append hget)

/-- Below a directory the root is one. -/
theorem isDirectory_root (h : (t.get loc).any isDirectory = true) :
    (t.get []).any isDirectory = true := by
  cases loc with
  | nil => exact h
  | cons name rest =>
    obtain ⟨t', hget, -⟩ := (Option.any_eq_true _ _).mp h
    rw [← nil_append (name :: rest)] at hget
    exact isDirectory_of_get_append hget

/-! ## Where a path leads -/

/-- Where a path leads from a directory, over any number of links. -/
inductive Leads (t : FileTree) : List JsString → List JsString → List JsString → Prop
  | done (current : List JsString) : Leads t current [] current
  | skip {current rest loc : List JsString} {segment : JsString}
      (hdirectory : (t.get current).any isDirectory = true) (hskip : matters segment = false)
      (hrest : Leads t current rest loc) : Leads t current (segment :: rest) loc
  | up {current rest loc : List JsString} (hdirectory : (t.get current).any isDirectory = true)
      (hrest : Leads t current.dropLast rest loc) : Leads t current (js ".." :: rest) loc
  | entry {current rest loc : List JsString} {segment : JsString} {t' : FileTree}
      (hdirectory : (t.get current).any isDirectory = true) (hmatters : matters segment = true)
      (hdots : segment ≠ js "..") (hget : t.get (current ++ [segment]) = some t')
      (hlink : t'.isLink = false) (hrest : Leads t (current ++ [segment]) rest loc) :
      Leads t current (segment :: rest) loc
  | link {current rest loc : List JsString} {segment target : JsString}
      (hdirectory : (t.get current).any isDirectory = true) (hmatters : matters segment = true)
      (hdots : segment ≠ js "..") (hget : t.get (current ++ [segment]) = some (link target))
      (hrest : Leads t (if isAbsolute target then [] else current)
        (segments target ++ rest) loc) : Leads t current (segment :: rest) loc

/-- A part that does not matter is empty or `.`. -/
theorem matters_eq_false_iff : matters segment = false ↔ segment = [] ∨ segment = js "." := by
  simp [matters, or_iff_not_imp_left]

variable {current segments : List JsString}

/-- What is followed leads there. -/
theorem leads_of_follow
    (honLink : ∀ current segments, onLink current segments = .ok loc → t.Leads current segments loc)
    (h : t.follow onLink current segments = .ok loc) : t.Leads current segments loc := by
  induction segments generalizing current with
  | nil =>
    cases h
    exact .done _
  | cons segment rest ih =>
    rw [follow] at h
    split_ifs at h with hnot hskip hdots
    all_goals have hdirectory := Bool.not_eq_false _ ▸ hnot
    · exact .skip hdirectory (matters_eq_false_iff.mpr hskip) (ih h)
    · rw [hdots]
      exact .up hdirectory (ih h)
    have hmatters : matters segment = true := by
      rw [← Bool.not_eq_false, matters_eq_false_iff]
      exact hskip
    split at h
    · cases h
    · rename_i target hget
      exact .link hdirectory hmatters hdots hget (honLink _ _ h)
    rename_i t' hnotLink hget
    refine .entry hdirectory hmatters hdots hget ?_ (ih h)
    cases t' with
    | link target => exact absurd rfl (hnotLink target)
    | _ => rfl

/-- What is found leads there. -/
theorem leads_of_lookUp {n : ℕ} (h : t.lookUp n current segments = .ok loc) :
    t.Leads current segments loc := by
  induction n generalizing current segments with
  | zero => exact leads_of_follow (fun _ _ h => by cases h) h
  | succ n ih => exact leads_of_follow (fun _ _ h => ih h) h

/-- A path leads to one location. -/
theorem Leads.unique {current segments loc' : List JsString} (h : t.Leads current segments loc)
    (h' : t.Leads current segments loc') : loc = loc' := by
  induction h with
  | done current =>
    cases h'
    rfl
  | skip hdirectory hskip hrest ih =>
    cases h' with
    | skip _ _ hrest' => exact ih hrest'
    | up => exact absurd hskip (by decide)
    | _ => simp_all
  | up hdirectory hrest ih =>
    cases h' with
    | skip _ hskip _ => exact absurd hskip (by decide)
    | up _ hrest' => exact ih hrest'
    | _ => contradiction
  | entry hdirectory hmatters hdots hget hlink hrest ih =>
    cases h' with
    | skip => simp_all
    | up => contradiction
    | entry _ _ _ _ _ hrest' => exact ih hrest'
    | link _ _ _ hget' _ =>
      cases hget.symm.trans hget'
      cases hlink
  | link hdirectory hmatters hdots hget hrest ih =>
    cases h' with
    | skip => simp_all
    | up => contradiction
    | entry => simp_all [isLink]
    | link _ _ _ hget' hrest' =>
      rw [hget] at hget'
      cases hget'
      exact ih hrest'

/-- A path that goes on behind another leads on from where that leads. -/
theorem Leads.append {current a b middle : List JsString} (ha : t.Leads current a middle)
    (hb : t.Leads middle b loc) : t.Leads current (a ++ b) loc := by
  induction ha with
  | done current => exact hb
  | skip hdirectory hskip hrest ih => exact .skip hdirectory hskip (ih hb)
  | up hdirectory hrest ih => exact .up hdirectory (ih hb)
  | entry hdirectory hmatters hdots hget hlink hrest ih =>
    exact .entry hdirectory hmatters hdots hget hlink (ih hb)
  | link hdirectory hmatters hdots hget hrest ih =>
    have hpath := ih hb
    rw [append_assoc] at hpath
    exact .link hdirectory hmatters hdots hget hpath

/-- The beginning of a path leads somewhere if the path does. -/
theorem Leads.of_append {current a b : List JsString} (h : t.Leads current (a ++ b) loc) :
    ∃ middle, t.Leads current a middle ∧ t.Leads middle b loc := by
  generalize hpath : a ++ b = path at h
  induction h generalizing a with
  | done current =>
    obtain ⟨rfl, rfl⟩ := append_eq_nil_iff.mp hpath
    exact ⟨current, .done current, .done current⟩
  | skip hdirectory hskip hrest ih =>
    obtain ⟨rfl, rfl⟩ | ⟨a, rfl, htail⟩ := append_eq_cons_iff.mp hpath
    · exact ⟨_, .done _, .skip hdirectory hskip hrest⟩
    · obtain ⟨middle, ha, hb⟩ := ih htail.symm
      exact ⟨middle, .skip hdirectory hskip ha, hb⟩
  | up hdirectory hrest ih =>
    obtain ⟨rfl, rfl⟩ | ⟨a, rfl, htail⟩ := append_eq_cons_iff.mp hpath
    · exact ⟨_, .done _, .up hdirectory hrest⟩
    · obtain ⟨middle, ha, hb⟩ := ih htail.symm
      exact ⟨middle, .up hdirectory ha, hb⟩
  | entry hdirectory hmatters hdots hget hlink hrest ih =>
    obtain ⟨rfl, rfl⟩ | ⟨a, rfl, htail⟩ := append_eq_cons_iff.mp hpath
    · exact ⟨_, .done _, .entry hdirectory hmatters hdots hget hlink hrest⟩
    · obtain ⟨middle, ha, hb⟩ := ih htail.symm
      exact ⟨middle, .entry hdirectory hmatters hdots hget hlink ha, hb⟩
  | link hdirectory hmatters hdots hget hrest ih =>
    obtain ⟨rfl, rfl⟩ | ⟨a, rfl, htail⟩ := append_eq_cons_iff.mp hpath
    · exact ⟨_, .done _, .link hdirectory hmatters hdots hget hrest⟩
    · obtain ⟨middle, ha, hb⟩ := ih (by rw [htail, append_assoc])
      exact ⟨middle, .link hdirectory hmatters hdots hget ha, hb⟩

/-- A path of names without a link on its way leads where it says. -/
theorem Leads.eq_append {current names : List JsString} (h : t.Leads current names loc)
    (hnames : ∀ name ∈ names, matters name = true ∧ name ≠ js "..")
    (hlinks : ∀ front, front <+: names → (t.get (current ++ front)).any isLink = false) :
    loc = current ++ names := by
  induction h with
  | done => rw [append_nil]
  | skip _ hskip =>
    rw [(hnames _ mem_cons_self).1] at hskip
    cases hskip
  | up => exact absurd rfl (hnames _ mem_cons_self).2
  | entry _ _ _ _ _ _ ih =>
    rw [ih (fun name hname => hnames name (mem_cons_of_mem _ hname)) fun front hfront => ?_]
    · rw [append_assoc, singleton_append]
    · rw [append_assoc, singleton_append]
      exact hlinks _ (cons_prefix_cons.mpr ⟨rfl, hfront⟩)
  | link _ _ _ hget =>
    have hnot := hlinks _ (cons_prefix_cons.mpr ⟨rfl, nil_prefix⟩)
    rw [hget] at hnot
    cases hnot

/-- A path leads to a real location. -/
theorem Leads.isReal (h : t.Leads current segments loc) (hreal : t.IsReal current) :
    t.IsReal loc := by
  induction h with
  | done current => exact hreal
  | skip hdirectory hskip hrest ih => exact ih hreal
  | up hdirectory hrest ih => exact ih (isReal_dropLast hreal)
  | entry hdirectory hmatters hdots hget hlink hrest ih => exact ih ⟨_, hget, hlink⟩
  | link hdirectory hmatters hdots hget hrest ih =>
    refine ih ?_
    split_ifs
    · exact isReal_of_isDirectory (isDirectory_root hdirectory)
    · exact hreal

/-- A path that leads somewhere starts in a directory. -/
theorem Leads.isDirectory {rest : List JsString} (h : t.Leads current (segment :: rest) loc) :
    (t.get current).any isDirectory = true := by
  cases h <;> assumption

/-- The names of a real location lead to it. -/
theorem follow_names {current names : List JsString} (hreal : t.IsReal (current ++ names))
    (hnames : ∀ name ∈ names, IsName name) :
    t.follow onLink current names = .ok (current ++ names) := by
  induction names generalizing current with
  | nil => rw [follow, append_nil]
  | cons name rest ih =>
    obtain ⟨hname, hrest⟩ := forall_mem_cons.mp hnames
    obtain ⟨t', hget, -⟩ := id hreal
    have happend : current ++ name :: rest = (current ++ [name]) ++ rest := by simp
    rw [follow, if_neg (by rw [isDirectory_of_get_append hget]; decide),
      if_neg (not_or.mpr ⟨hname.ne_nil, hname.ne_dot⟩), if_neg hname.ne_dots]
    rw [happend] at hreal ⊢
    -- The entry is a directory if names follow, and real if none does.
    have hentry : t.IsReal (current ++ [name]) := by
      cases rest with
      | nil => rwa [append_nil] at hreal
      | cons next rest =>
        rw [happend] at hget
        exact isReal_of_isDirectory (isDirectory_of_get_append hget)
    obtain ⟨t', hget, hlink⟩ := hentry
    rw [hget]
    cases t' with
    | link target => cases hlink
    | _ => exact ih hreal hrest

end FileTree

/-! ## File systems -/

/-- The calls of a file system that may fail. -/
inductive FileOp
  | readdir
  | stat
  | lstat
  | realpath
  | read
  deriving DecidableEq

theorem Posix.isName_nil : ∀ name ∈ ([] : List JsString), IsName name :=
  fun _ h => absurd h not_mem_nil

/-- A file system as a process sees it: the tree, the working directory, how many links may be on a
path, and which calls fail for other reasons, by the path of their entry. -/
structure FileSystem where
  tree : FileTree
  cwd : List JsString
  linkLimit : ℕ
  failure : FileOp → JsString → Option Errno
  wellFormed : tree.wellFormed = true
  cwd_names : ∀ name ∈ cwd, IsName name

namespace FileSystem

variable (fs : FileSystem)

/-- A location as a path. -/
def pathText (loc : List JsString) : JsString := unit '/' :: joinSegments loc

/-- The working directory as a path. -/
def cwdText : JsString := pathText fs.cwd

/-- Where a path starts. -/
def startOf (path : JsString) : List JsString := if isAbsolute path then [] else fs.cwd

/-- Where a path leads. -/
def locate (path : JsString) : Except Errno (List JsString) :=
  fs.tree.lookUp fs.linkLimit (fs.startOf path) (segments path)

/-- `realpath(path)`. -/
def realpath (path : JsString) : Except Errno (List JsString) :=
  match fs.failure .realpath path with
  | some e => .error e
  | none => fs.locate path

/-- What is found at a path. -/
def find (path : JsString) : Except Errno FileTree :=
  match fs.locate path with
  | .error e => .error e
  | .ok loc =>
    match fs.tree.get loc with
    | some t => .ok t
    | none => .error .enoent

/-- `stat(path)`, made for an entry. -/
def stat (entry path : JsString) : Except Errno FileTree :=
  match fs.failure .stat entry with
  | some e => .error e
  | none => fs.find path

/-- `readdir(path)`: the names with what they stand for. -/
def readdir (path : JsString) : Except Errno (List (JsString × FileTree)) :=
  match fs.failure .readdir path with
  | some e => .error e
  | none =>
    match fs.find path with
    | .error e => .error e
    | .ok (.directory entries) => .ok entries
    | .ok _ => .error .enotdir

/-- `lstat(path)` of an entry that was listed. -/
def lstat (path : JsString) (entry : FileTree) : Except Errno FileTree :=
  match fs.failure .lstat path with
  | some e => .error e
  | none => .ok entry

/-- Where a path leads, over any number of links: its real path. -/
def LeadsTo (path : JsString) (loc : List JsString) : Prop :=
  fs.tree.Leads (fs.startOf path) (segments path) loc

variable {fs}

variable {path : JsString}

/-- What is found stands where the path leads. -/
theorem find_eq_ok_iff {t : FileTree} :
    fs.find path = .ok t ↔ ∃ loc, fs.locate path = .ok loc ∧ fs.tree.get loc = some t := by
  unfold find
  cases hlocate : fs.locate path with
  | error e => simp
  | ok loc => cases hget : fs.tree.get loc <;> simp [hget]

variable {loc : List JsString}

/-- `realpath` finds where the path leads. -/
theorem realpath_eq_ok_iff :
    fs.realpath path = .ok loc ↔ fs.failure .realpath path = none ∧ fs.locate path = .ok loc := by
  unfold realpath
  cases fs.failure .realpath path <;> simp

/-- `stat` finds what is at the path. -/
theorem stat_eq_ok_iff {entry path : JsString} {t : FileTree} :
    fs.stat entry path = .ok t ↔ fs.failure .stat entry = none ∧ fs.find path = .ok t := by
  unfold stat
  cases fs.failure .stat entry <;> simp

/-- `readdir` lists the directory at the path. -/
theorem readdir_eq_ok_iff {entries : List (JsString × FileTree)} : fs.readdir path = .ok entries ↔
      fs.failure .readdir path = none ∧ fs.find path = .ok (.directory entries) := by
  unfold readdir
  cases fs.failure .readdir path with
  | some e => simp
  | none =>
    cases fs.find path with
    | error e => simp
    | ok t => cases t <;> simp

/-- What `locate` finds, the path leads to. -/
theorem leadsTo_of_locate (h : fs.locate path = .ok loc) :
    fs.LeadsTo path loc := FileTree.leads_of_lookUp h

/-- A path has one real path. -/
theorem LeadsTo.unique {loc loc' : List JsString} (h : fs.LeadsTo path loc)
    (h' : fs.LeadsTo path loc') : loc = loc' := FileTree.Leads.unique h h'

/-- The parts of a real location are names. -/
theorem isName_of_isReal (h : fs.tree.IsReal loc) : ∀ name ∈ loc, IsName name := by
  obtain ⟨t, hget, -⟩ := h
  exact (FileTree.wellFormed_get fs.wellFormed hget).2

/-- The parts of the path of a location are its names, and empty ones. -/
theorem segments_pathText (hnames : ∀ name ∈ loc, IsName name) :
    segments (pathText loc) = [] :: if loc = [] then [[]] else loc := by
  unfold pathText
  rw [segments_cons_slash]
  split_ifs with hnil
  · rw [hnil]
    decide
  · rw [segments_joinSegments hnil fun name h => (hnames name h).noSlash]

/-- The path of a real location leads to it. -/
theorem locate_pathText (hroot : fs.tree.isDirectory = true) (hreal : fs.tree.IsReal loc) :
    fs.locate (pathText loc) = .ok loc := by
  have hnames := isName_of_isReal hreal
  have hfollow : ∀ onLink, fs.tree.follow onLink [] (segments (pathText loc)) = .ok loc := by
    intro onLink
    have hskip : ∀ rest, fs.tree.follow onLink [] ([] :: rest) = fs.tree.follow onLink [] rest := by
      intro rest
      rw [FileTree.follow, if_neg, if_pos (.inl rfl)]
      rw [FileTree.get, Option.any_some, hroot]
      decide
    rw [segments_pathText hnames, hskip]
    split_ifs with hnil
    · rw [hskip, FileTree.follow, hnil]
    · exact FileTree.follow_names hreal hnames
  unfold locate startOf
  rw [if_pos (show isAbsolute (pathText loc) = true from rfl)]
  cases fs.linkLimit with
  | zero => exact hfollow _
  | succ n => exact hfollow _

/-- What is found is real, and is found again by its path. -/
theorem locate_again (h : fs.locate path = .ok loc) :
    fs.tree.IsReal loc ∧ fs.locate (pathText loc) = .ok loc := by
  obtain ⟨segment, rest, hsegments⟩ :=
    exists_cons_of_ne_nil (splitOn_ne_nil (unit '/') path)
  unfold locate segments at h
  rw [hsegments] at h
  have hleads := FileTree.leads_of_lookUp h
  have hdirectory := hleads.isDirectory
  have hreal := hleads.isReal (FileTree.isReal_of_isDirectory hdirectory)
  exact ⟨hreal, locate_pathText (FileTree.isDirectory_root hdirectory) hreal⟩

/-- Where names below a directory lead is where their path leads. -/
theorem leadsTo_pathText_iff {root names loc : List JsString}
    (hroot : (fs.tree.get root).any FileTree.isDirectory = true)
    (hnames : ∀ name ∈ names, IsName name) :
    fs.LeadsTo (pathText (root ++ names)) loc ↔ fs.tree.Leads root names loc := by
  have htop := FileTree.isDirectory_root hroot
  have hreal := FileTree.isReal_of_isDirectory hroot
  have hrootNames := isName_of_isReal hreal
  have hall : ∀ name ∈ root ++ names, IsName name := fun name hmem =>
    (mem_append.mp hmem).elim (hrootNames name) (hnames name)
  have hstart : fs.startOf (pathText (root ++ names)) = [] := if_pos rfl
  have hskip : ∀ rest, fs.tree.Leads [] ([] :: rest) loc ↔ fs.tree.Leads [] rest loc := by
    intro rest
    refine ⟨fun h => ?_, .skip htop rfl⟩
    cases h with
    | skip _ _ hrest => exact hrest
    | entry _ hmatters _ _ _ _ => cases hmatters
    | link _ hmatters _ _ _ => cases hmatters
  have hpath : fs.LeadsTo (pathText (root ++ names)) loc ↔ fs.tree.Leads [] (root ++ names) loc := by
    unfold LeadsTo
    rw [hstart, segments_pathText hall, hskip]
    split_ifs with hnil
    · rw [hnil, hskip]
    · rfl
  have hlead : fs.tree.Leads [] root root := by
    have hfollow : fs.tree.follow (fun _ _ => .error .eloop) [] root = .ok root :=
      FileTree.follow_names hreal hrootNames
    exact FileTree.leads_of_follow (fun _ _ h => by cases h) hfollow
  rw [hpath]
  constructor
  · intro h
    obtain ⟨middle, hmiddle, hrest⟩ := h.of_append
    rwa [hmiddle.unique hlead] at hrest
  · intro h
    exact hlead.append h

/-- Where the path of a location leads if no link is on its way. -/
theorem location_pathText (hnames : ∀ name ∈ loc, IsName name) (cwd : JsString) :
    location cwd (pathText loc) = loc := by
  have hskip : pushSegment false [] [] = [] := by decide
  have hstart : start cwd (pathText loc) = [] := if_pos rfl
  rw [location_eq, segments_pathText hnames, hstart, foldl_cons, hskip]
  split_ifs with hnil
  · rw [hnil]
    decide
  · rw [foldl_pushSegment_names _ _ hnames, append_nil, reverse_reverse]

/-- The path of a location below another starts with its path, and is longer. -/
theorem pathText_append (loc : List JsString) {rest : List JsString} (hrest : rest ≠ [])
    (hnames : ∀ name ∈ rest, name ≠ []) :
    pathText loc <+: pathText (loc ++ rest) ∧
      (pathText loc).length < (pathText (loc ++ rest)).length := by
  unfold pathText
  by_cases hloc : loc = []
  · obtain ⟨name, tail, rfl⟩ := exists_cons_of_ne_nil hrest
    have hname := length_pos_of_ne_nil (hnames name mem_cons_self)
    rw [hloc, nil_append]
    refine ⟨⟨joinSegments (name :: tail), rfl⟩, ?_⟩
    have hlength : name.length ≤ (joinSegments (name :: tail)).length := by
      by_cases htail : tail = []
      · rw [htail, joinSegments_singleton]
      · rw [joinSegments_cons name htail, length_append]
        omega
    have hnil : (joinSegments []).length = 0 := rfl
    rw [length_cons, length_cons, hnil]
    omega
  · rw [joinSegments_append hloc hrest]
    refine ⟨⟨unit '/' :: joinSegments rest, rfl⟩, ?_⟩
    rw [length_cons, length_cons, length_append, length_cons]
    omega

/-- Names are parts that matter. -/
theorem filter_matters_names {names : List JsString} (hnames : ∀ name ∈ names, IsName name) :
    names.filter matters = names := by
  refine filter_eq_self.mpr fun name hmem => ?_
  have hname := hnames name hmem
  simp [matters, hname.ne_nil, hname.ne_dot]

/-- An absolute text that ends with a name is normalised to the path of its names. -/
theorem normalize_eq_pathText {text front name : JsString} {names : List JsString}
    (htext : text = front ++ unit '/' :: name) (habsolute : isAbsolute text = true)
    (hname : IsName name) (hparts : (segments text).filter matters = names)
    (hnames : ∀ name ∈ names, IsName name) (hne : names ≠ []) :
    normalize text = pathText names := by
  have hnil : text ≠ [] := by
    rintro rfl
    cases habsolute
  have hdots : js ".." ∉ segments text := by
    intro hmem
    have hmem' : js ".." ∈ names := by
      rw [← hparts]
      exact mem_filter.mpr ⟨hmem, by decide⟩
    exact (hnames _ hmem').ne_dots rfl
  have hlast : text.getLast? ≠ some (unit '/') := by
    rw [htext, append_cons, getLast?_append_of_ne_nil _ hname.ne_nil]
    exact fun hlast => hname.noSlash (mem_of_getLast? hlast)
  obtain ⟨hempty, -⟩ | ⟨-, heq⟩ := normalize_cases hnil hdots
  · exact absurd (hparts.symm.trans hempty) hne
  · rw [heq, hparts, if_neg hlast, if_pos habsolute, append_nil]
    rfl

/-- The path of a location is normalised. -/
theorem normalize_pathText (hnames : ∀ name ∈ loc, IsName name) :
    normalize (pathText loc) = pathText loc := by
  rcases eq_nil_or_concat loc with rfl | ⟨front, name, rfl⟩
  · decide
  rw [concat_eq_append] at hnames ⊢
  have hne : front ++ [name] ≠ [] := by simp
  have hname := hnames name (mem_append_right _ (mem_singleton.mpr rfl))
  have htext : ∃ text, pathText (front ++ [name]) = text ++ unit '/' :: name := by
    unfold pathText
    by_cases hfront : front = []
    · exact ⟨[], by rw [hfront, nil_append, joinSegments_singleton]; rfl⟩
    · rw [joinSegments_append hfront (cons_ne_nil _ _), joinSegments_singleton]
      exact ⟨unit '/' :: joinSegments front, rfl⟩
  obtain ⟨text, htext⟩ := htext
  refine normalize_eq_pathText htext rfl hname ?_ hnames hne
  rw [segments_pathText hnames, if_neg hne, filter_cons_of_neg (by decide),
    filter_matters_names hnames]

/-- The path of an entry of a directory. -/
theorem join_pathText {name : JsString} (hnames : ∀ name ∈ loc, IsName name)
    (hname : IsName name) : join [pathText loc, name] = pathText (loc ++ [name]) := by
  have hjoin : join [pathText loc, name] = normalize (pathText loc ++ unit '/' :: name) := by
    simp [join, pathText, hname.ne_nil, joinSegments, intercalate]
  have hall : ∀ n ∈ loc ++ [name], IsName n := by
    intro n hn
    obtain hn | hn := mem_append.mp hn
    · exact hnames n hn
    · rw [mem_singleton.mp hn]
      exact hname
  have hparts : (segments (pathText loc ++ unit '/' :: name)).filter matters = loc ++ [name] := by
    rw [segments_append, segments_pathText hnames, segments_of_notMem hname.noSlash,
      ← filter_matters_names hall, filter_append, filter_append]
    split_ifs with hnil
    · rw [hnil]
      rfl
    · rfl
  rw [hjoin]
  exact normalize_eq_pathText rfl rfl hname hparts hall (by simp)

/-- The names of an entry below a directory, from its path. -/
theorem relative_pathText {loc names : List JsString}
    (hnames : ∀ name ∈ loc ++ names, IsName name) (cwd : JsString) :
    relative cwd (pathText loc) (pathText (loc ++ names)) = joinSegments names := by
  have hloc : ∀ name ∈ loc, IsName name := fun name h =>
    hnames name (mem_append_left _ h)
  have hdrop : ∀ a b : List JsString, dropCommon a (a ++ b) = ([], b) := by
    intro a b
    induction a with
    | nil => cases b <;> rfl
    | cons name a ih =>
      rw [cons_append, dropCommon, if_pos rfl, ih]
  unfold relative
  rw [location_pathText hloc, location_pathText hnames, hdrop]
  rfl

end FileSystem

end ZimaControl
