import ZimaControl.Backup.FileScan

/-!
# How the walk goes down

What `walk` does with an entry depends on the entry alone; it is the entry's `Verdict`. So the
directories that `walk` may be called on are known from the file system (`Scan.Entered`), with the
calls that are open, and each fact about a scan is an induction over the depth of the walk and the
entries of a directory, with one case for each verdict.

Each call is made on the path of the root and names behind it. `Scan.At` says so, and where the
names lead; `at_of_enter` and `at_of_push` say what is there.
-/

namespace ZimaControl

open List FileSystem FileTree Posix

/-! ## Verdicts -/

/-- What `walk` does with an entry. -/
inductive Verdict
  | exclude
  | ignore
  | pass
  | push (entry : PersistentFileEntry)
  | fail (e : BackupFailure)
  | enter (linked : Bool)
  deriving DecidableEq

/-- What is thrown behind a link counts as a broken link. -/
def caught : WalkResult → WalkResult
  | none => none
  | some (.ok _, st) => some (.ok (), st)
  | some (.error _, st) => some (.ok (), st.ignore)

/-- A verdict at work. -/
def Verdict.apply (recur : JsString → ScanState → WalkResult) (fullPath : JsString) (st : ScanState) :
    Verdict → WalkResult
  | exclude => some (.ok (), st.exclude)
  | ignore => some (.ok (), st.ignore)
  | pass => some (.ok (), st)
  | push entry => some (.ok (), st.push entry)
  | fail e => some (.error e, st)
  | enter false => recur fullPath st
  | enter true => caught (recur fullPath st)

namespace Scan

variable (s : Scan)

/-- The path of an entry. -/
def fullPath (currentDir : JsString) (dirent : JsString × FileTree) : JsString :=
  join [currentDir, dirent.1]

/-- The verdict on a link that is followed. -/
def linkVerdict (fullPath : JsString) : Verdict :=
  match s.fs.realpath fullPath with
  | .error _ => .ignore
  | .ok resolvedTarget =>
    if s.passesContainment resolvedTarget = false then .ignore
    else
      match s.fs.stat fullPath (pathText resolvedTarget) with
      | .error _ => .ignore
      | .ok (.directory _) => .enter true
      | .ok (.file size) => .push ⟨fullPath, s.relPath fullPath, size, true⟩
      | .ok _ => .pass

/-- The verdict on an entry. -/
def verdict (currentDir : JsString) (dirent : JsString × FileTree) : Verdict :=
  if isPathExcluded (s.relPath (fullPath currentDir dirent)) s.exclusions then .exclude
  else
    match dirent.2 with
    | .link _ =>
      if s.followSymlinks = false then .ignore
      else s.linkVerdict (fullPath currentDir dirent)
    | .directory _ => .enter false
    | .file _ =>
      match s.fs.lstat (fullPath currentDir dirent) dirent.2 with
      | .error e => .fail (e.thrown "lstat" (fullPath currentDir dirent))
      | .ok fileStat => .push ⟨fullPath currentDir dirent,
          s.relPath (fullPath currentDir dirent), fileStat.size, false⟩
    | .other => .pass

variable {s} {recur : JsString → ScanState → WalkResult} {dir : JsString}
  {dirent : JsString × FileTree} {dirents : List (JsString × FileTree)} {st st' : ScanState}
  {out : Except BackupFailure Unit}

/-- A link is visited by its verdict. -/
theorem visitLink_eq (s : Scan) (recur : JsString → ScanState → WalkResult) (path : JsString)
    (st : ScanState) : s.visitLink recur path st = (s.linkVerdict path).apply recur path st := by
  unfold visitLink linkVerdict
  cases s.fs.realpath path with
  | error e => rfl
  | ok target =>
    dsimp only
    split_ifs
    · rfl
    cases s.fs.stat path (pathText target) with
    | error e => rfl
    | ok found =>
      cases found with
      | directory entries =>
        dsimp only [Verdict.apply]
        cases recur path st with
        | none => rfl
        | some result =>
          obtain ⟨out, st'⟩ := result
          cases out <;> rfl
      | _ => rfl

/-- An entry is visited by its verdict. -/
theorem visit_eq (s : Scan) (recur : JsString → ScanState → WalkResult) (dir : JsString)
    (dirent : JsString × FileTree) (st : ScanState) : s.visit recur dir dirent st =
      (s.verdict dir dirent).apply recur (fullPath dir dirent) st := by
  obtain ⟨name, child⟩ := dirent
  unfold visit verdict fullPath
  dsimp only
  cases isPathExcluded (s.relPath (join [dir, name])) s.exclusions with
  | true => rfl
  | false =>
    rw [if_neg Bool.false_ne_true, if_neg Bool.false_ne_true]
    cases child with
    | link target =>
      cases s.followSymlinks with
      | true => exact visitLink_eq s recur _ st
      | false => rfl
    | file size => cases s.fs.lstat (join [dir, name]) (.file size) <;> rfl
    | _ => rfl

/-! ## The loop over a directory -/

/-- An entry behind which the loop goes on, and one behind which it stops. -/
theorem visitAll_cons (recur : JsString → ScanState → WalkResult) (dir : JsString)
    (dirent : JsString × FileTree) (dirents : List (JsString × FileTree)) (st : ScanState) :
    (∃ st', s.visit recur dir dirent st = some (.ok (), st') ∧
        s.visitAll recur dir (dirent :: dirents) st = s.visitAll recur dir dirents st') ∨
      ((∀ st', s.visit recur dir dirent st ≠ some (.ok (), st')) ∧
        s.visitAll recur dir (dirent :: dirents) st = s.visit recur dir dirent st) := by
  rw [visitAll]
  cases hvisit : s.visit recur dir dirent st with
  | none => exact .inr ⟨by simp, rfl⟩
  | some result =>
    obtain ⟨out, st'⟩ := result
    cases out with
    | ok u => exact .inl ⟨st', rfl, rfl⟩
    | error e => exact .inr ⟨by simp, rfl⟩

/-- What each visit keeps, the loop keeps. -/
theorem visitAll_invariant {I : ScanState → Prop}
    (hvisit : ∀ dirent ∈ dirents, ∀ st out st', I st →
      s.visit recur dir dirent st = some (out, st') → I st')
    (hst : I st) (h : s.visitAll recur dir dirents st = some (out, st')) : I st' := by
  induction dirents generalizing st with
  | nil =>
    cases h
    exact hst
  | cons dirent dirents ih =>
    obtain ⟨hfirst, hrest⟩ := forall_mem_cons.mp hvisit
    obtain ⟨next, hnext, heq⟩ | ⟨-, heq⟩ := visitAll_cons (s := s) recur dir dirent dirents st
    · rw [heq] at h
      exact ih hrest (hfirst _ _ _ hst hnext) h
    · rw [heq] at h
      exact hfirst _ _ _ hst h

/-- If the loop has no outcome, a visit has none. -/
theorem exists_visit_eq_none (h : s.visitAll recur dir dirents st = none) :
    ∃ dirent ∈ dirents, ∃ st, s.visit recur dir dirent st = none := by
  induction dirents generalizing st with
  | nil => cases h
  | cons dirent dirents ih =>
    obtain ⟨next, -, heq⟩ | ⟨-, heq⟩ := visitAll_cons (s := s) recur dir dirent dirents st
    · rw [heq] at h
      obtain ⟨found, hmem, hnone⟩ := ih h
      exact ⟨found, mem_cons_of_mem _ hmem, hnone⟩
    · rw [heq] at h
      exact ⟨dirent, mem_cons_self, st, h⟩

/-- If the loop comes to its end, each visit does. -/
theorem visit_returned (h : s.visitAll recur dir dirents st = some (.ok (), st')) :
    ∀ dirent ∈ dirents, ∃ st st', s.visit recur dir dirent st = some (.ok (), st') := by
  induction dirents generalizing st with
  | nil => exact fun _ hmem => absurd hmem not_mem_nil
  | cons dirent dirents ih =>
    obtain ⟨next, hnext, heq⟩ | ⟨hstop, heq⟩ := visitAll_cons (s := s) recur dir dirent dirents st
    · rw [heq] at h
      exact forall_mem_cons.mpr ⟨⟨st, next, hnext⟩, ih h⟩
    · rw [heq] at h
      exact absurd h (hstop st')

/-! ## Calls -/

/-- Directories that `walk` may be called on, with the open calls, the latest first, and whether a
link was followed on the way. -/
inductive Entered (s : Scan) : List JsString → Bool → Prop
  | root : Entered s [s.rootText] false
  | call {dir : JsString} {chain : List JsString} {behind linked : Bool}
      {dirents : List (JsString × FileTree)} {dirent : JsString × FileTree}
      (hdir : Entered s (dir :: chain) behind) (hlist : s.fs.readdir dir = .ok dirents)
      (hmem : dirent ∈ dirents) (henter : s.verdict dir dirent = .enter linked) :
      Entered s (fullPath dir dirent :: dir :: chain) (behind || linked)

variable {chain : List JsString} {behind : Bool}

/-- A call of `walk` lists its directory. -/
theorem walk_succ (s : Scan) (depth : ℕ) (dir : JsString) (st : ScanState) :
    (∃ e, s.fs.readdir dir = .error e ∧
        s.walk (depth + 1) dir st = some (.error (e.thrown "scandir" dir), st)) ∨
      ∃ dirents, s.fs.readdir dir = .ok dirents ∧
        s.walk (depth + 1) dir st = s.visitAll (s.walk depth) dir (s.sorted dirents) st := by
  rw [walk]
  cases s.fs.readdir dir with
  | error e => exact .inl ⟨e, rfl, rfl⟩
  | ok dirents => exact .inr ⟨dirents, rfl, rfl⟩

/-- Sorting keeps the entries. -/
theorem mem_sorted : dirent ∈ s.sorted dirents ↔ dirent ∈ dirents :=
  mem_insertionSort _

/-- What holds of each file that is pushed holds of each that the walk finds. -/
theorem walk_entries {P : PersistentFileEntry → Prop}
    (hpush : ∀ dir chain behind dirents dirent entry, s.Entered (dir :: chain) behind →
      s.fs.readdir dir = .ok dirents → dirent ∈ dirents → s.verdict dir dirent = .push entry →
      P entry) (depth : ℕ) (hdir : s.Entered (dir :: chain) behind)
    (hst : ∀ entry ∈ st.entries, P entry) (h : s.walk depth dir st = some (out, st')) :
    ∀ entry ∈ st'.entries, P entry := by
  induction depth generalizing dir chain behind st out st' with
  | zero => cases h
  | succ depth ih =>
    obtain ⟨e, -, heq⟩ | ⟨dirents, hlist, heq⟩ := walk_succ s depth dir st
    · rw [heq] at h
      cases h
      exact hst
    rw [heq] at h
    -- one visit adds what it pushes, or what the call behind the entry adds
    refine visitAll_invariant (I := fun st => ∀ entry ∈ st.entries, P entry) ?_ hst h
    intro dirent hmem st out st' hst hvisit
    rw [mem_sorted] at hmem
    rw [visit_eq] at hvisit
    cases hverdict : s.verdict dir dirent with
    | push entry =>
      rw [hverdict] at hvisit
      cases hvisit
      intro entry' hentry'
      obtain hold | hnew := mem_append.mp hentry'
      · exact hst entry' hold
      · rw [mem_singleton.mp hnew]
        exact hpush dir chain behind dirents dirent entry hdir hlist hmem hverdict
    | enter linked =>
      have hnext := hdir.call hlist hmem hverdict
      rw [hverdict] at hvisit
      cases linked with
      | false => exact ih hnext hst hvisit
      | true =>
        cases hwalk : s.walk depth (fullPath dir dirent) st with
        | none =>
          rw [Verdict.apply, hwalk] at hvisit
          cases hvisit
        | some result =>
          obtain ⟨out', st''⟩ := result
          have hfound := ih hnext hst hwalk
          rw [Verdict.apply, hwalk] at hvisit
          cases out' <;> cases hvisit <;> exact hfound
    | _ =>
      rw [hverdict] at hvisit
      cases hvisit
      exact hst

/-- If the depth is not enough, as many calls are open. -/
theorem exists_chain_of_walk_eq_none (depth : ℕ) (hdir : s.Entered (dir :: chain) behind)
    (h : s.walk depth dir st = none) :
    ∃ chain' behind', s.Entered chain' behind' ∧ chain'.length = chain.length + 1 + depth := by
  induction depth generalizing dir chain behind st with
  | zero => exact ⟨dir :: chain, behind, hdir, rfl⟩
  | succ depth ih =>
    obtain ⟨e, -, heq⟩ | ⟨dirents, hlist, heq⟩ := walk_succ s depth dir st
    · rw [heq] at h
      cases h
    rw [heq] at h
    obtain ⟨dirent, hmem, st, hvisit⟩ := exists_visit_eq_none h
    rw [mem_sorted] at hmem
    rw [visit_eq] at hvisit
    cases hverdict : s.verdict dir dirent with
    | enter linked =>
      have hnext := hdir.call hlist hmem hverdict
      have hwalk : s.walk depth (fullPath dir dirent) st = none := by
        rw [hverdict] at hvisit
        cases linked with
        | false => exact hvisit
        | true =>
          cases hwalk : s.walk depth (fullPath dir dirent) st with
          | none => rfl
          | some result =>
            obtain ⟨out', st''⟩ := result
            rw [Verdict.apply, hwalk] at hvisit
            cases out' <;> cases hvisit
      obtain ⟨chain', behind', hchain, hlength⟩ := ih hnext hwalk
      refine ⟨chain', behind', hchain, ?_⟩
      rw [hlength, length_cons]
      omega
    | _ =>
      rw [hverdict] at hvisit
      cases hvisit

/-- If the walk returns, so does each call that is not made behind a link. -/
theorem walk_returned {depth : ℕ} (h : s.walk depth s.rootText st = some (.ok (), st'))
    (hdir : s.Entered chain behind) (hbehind : behind = false) :
    ∃ dir depth st st', chain.head? = some dir ∧ s.walk depth dir st = some (.ok (), st') := by
  induction hdir with
  | root => exact ⟨_, depth, st, st', rfl, h⟩
  | call hdir hlist hmem henter ih =>
    rename_i dir chain behind linked dirents dirent
    obtain ⟨rfl, rfl⟩ := Bool.or_eq_false_iff.mp hbehind
    obtain ⟨dir', depth, st, st', hhead, hwalk⟩ := ih rfl
    cases hhead
    cases depth with
    | zero => cases hwalk
    | succ depth =>
      obtain ⟨e, hlist', heq⟩ | ⟨dirents', hlist', heq⟩ := walk_succ s depth dir st
      · rw [hlist] at hlist'
        cases hlist'
      rw [hlist] at hlist'
      cases hlist'
      rw [heq] at hwalk
      obtain ⟨st, st', hvisit⟩ := visit_returned hwalk dirent (mem_sorted.mpr hmem)
      rw [visit_eq, henter] at hvisit
      exact ⟨_, depth, st, st', rfl, hvisit⟩

/-! ## Where a call is -/

/-- A path of the walk: the root and names behind it, and where they lead. -/
structure At (s : Scan) (path : JsString) (names loc : List JsString) : Prop where
  path_eq : path = pathText (s.canonicalRoot ++ names)
  isName : ∀ name ∈ names, IsName name
  leads : s.fs.tree.Leads s.canonicalRoot names loc

/-- The root is where the walk starts. -/
theorem at_root (s : Scan) : s.At s.rootText [] s.canonicalRoot := by
  refine ⟨?_, fun _ h => absurd h not_mem_nil, .done _⟩
  rw [append_nil]
  rfl

/-- The names of an entry. -/
theorem At.isName_append {path : JsString} {names loc : List JsString} (h : s.At path names loc)
    {name : JsString} (hname : IsName name) : ∀ n ∈ names ++ [name], IsName n := by
  intro n hmem
  obtain hmem | hmem := mem_append.mp hmem
  · exact h.isName n hmem
  · rw [mem_singleton.mp hmem]
    exact hname

section Places

variable (hroot : (s.fs.tree.get s.canonicalRoot).any isDirectory = true)
  {names loc : List JsString}

include hroot

/-- The parts of the root are names. -/
theorem isName_root : ∀ name ∈ s.canonicalRoot, IsName name :=
  isName_of_isReal (isReal_of_isDirectory hroot)

/-- A path of the walk leads where its names lead. -/
theorem At.leadsTo {path : JsString} (h : s.At path names loc) : s.fs.LeadsTo path loc := by
  rw [h.path_eq]
  exact (leadsTo_pathText_iff hroot h.isName).mpr h.leads

section

variable (h : s.At dir names loc)
include h

/-- The directory that is listed is where the names lead. -/
theorem At.get_of_readdir (hlist : s.fs.readdir dir = .ok dirents) :
    s.fs.tree.get loc = some (.directory dirents) := by
  obtain ⟨-, hfind⟩ := readdir_eq_ok_iff.mp hlist
  obtain ⟨found, hlocate, hget⟩ := find_eq_ok_iff.mp hfind
  have hfound : found = loc := (leadsTo_of_locate hlocate).unique (h.leadsTo hroot)
  rwa [hfound] at hget

/-- An entry of a directory has a name, and is found under it. -/
theorem At.entry (hlist : s.fs.readdir dir = .ok dirents) (hmem : dirent ∈ dirents) :
    IsName dirent.1 ∧ s.fs.tree.get (loc ++ [dirent.1]) = some dirent.2 := by
  have hget := h.get_of_readdir hroot hlist
  have hentry := (get_entry_iff s.fs.wellFormed hget).mp hmem
  refine ⟨(wellFormed_get s.fs.wellFormed hentry).2 _ ?_, hentry⟩
  exact mem_append_right _ (mem_singleton.mpr rfl)

section

variable (hname : IsName dirent.1)
include hname

/-- An entry has the path of its directory and its name behind it. -/
theorem At.fullPath_eq :
    fullPath dir dirent = pathText (s.canonicalRoot ++ (names ++ [dirent.1])) := by
  have hall : ∀ name ∈ s.canonicalRoot ++ names, IsName name := fun name hmem =>
    (mem_append.mp hmem).elim (isName_root hroot name) (h.isName name)
  unfold fullPath
  rw [h.path_eq, join_pathText hall hname, append_assoc]

/-- The relative path of an entry. -/
theorem At.relPath_eq :
    s.relPath (fullPath dir dirent) = slashes (joinSegments (names ++ [dirent.1])) := by
  have hall : ∀ name ∈ s.canonicalRoot ++ (names ++ [dirent.1]), IsName name :=
    fun name hmem => (mem_append.mp hmem).elim (isName_root hroot name)
      (h.isName_append hname name)
  unfold relPath rootText
  rw [h.fullPath_eq hroot hname, relative_pathText hall]

/-- The path of an entry is a path of the walk wherever its name leads. -/
theorem At.child {target : List JsString} (hleads : s.fs.tree.Leads loc [dirent.1] target) :
    s.At (fullPath dir dirent) (names ++ [dirent.1]) target := by
  exact ⟨h.fullPath_eq hroot hname, h.isName_append hname, h.leads.append hleads⟩

end

/-- An entry that is no link is where its name is. -/
theorem At.leads_entry (hlist : s.fs.readdir dir = .ok dirents) (hmem : dirent ∈ dirents)
    (hlink : dirent.2.isLink = false) : s.fs.tree.Leads loc [dirent.1] (loc ++ [dirent.1]) := by
  obtain ⟨hname, hentry⟩ := h.entry hroot hlist hmem
  have hdirectory : (s.fs.tree.get loc).any isDirectory = true := by
    rw [h.get_of_readdir hroot hlist]
    rfl
  have hmatters : matters dirent.1 = true := by
    simp [matters, hname.ne_nil, hname.ne_dot]
  exact .entry hdirectory hmatters hname.ne_dots hentry hlink (.done _)

/-- What `realpath` finds for an entry is where its name leads. -/
theorem At.leads_of_realpath (hname : IsName dirent.1) {target : List JsString}
    (hreal : s.fs.realpath (fullPath dir dirent) = .ok target) :
    s.fs.tree.Leads loc [dirent.1] target := by
  obtain ⟨-, hlocate⟩ := realpath_eq_ok_iff.mp hreal
  have hleads := leadsTo_of_locate hlocate
  rw [h.fullPath_eq hroot hname, leadsTo_pathText_iff hroot (h.isName_append hname)] at hleads
  obtain ⟨middle, hmiddle, hrest⟩ := hleads.of_append
  rwa [hmiddle.unique h.leads] at hrest

end

/-- What `stat` finds at a real path is what is there. -/
theorem At.get_of_stat {path entry : JsString} (h : s.At path names loc) {found : FileTree}
    (hstat : s.fs.stat entry (pathText loc) = .ok found) :
    s.fs.tree.get loc = some found := by
  have htop := isDirectory_root hroot
  have hreal := h.leads.isReal (isReal_of_isDirectory hroot)
  obtain ⟨-, hfind⟩ := stat_eq_ok_iff.mp hstat
  obtain ⟨target, hlocate, hget⟩ := find_eq_ok_iff.mp hfind
  rw [locate_pathText htop hreal] at hlocate
  rwa [← Except.ok.inj hlocate] at hget

end Places

/-! ## What is behind a verdict -/

/-- An entry that is not excluded. -/
def Includes (s : Scan) (dir : JsString) (dirent : JsString × FileTree) : Prop :=
  isPathExcluded (s.relPath (fullPath dir dirent)) s.exclusions = false

/-- A link that is looked at. -/
structure Considers (s : Scan) (dir : JsString) (dirent : JsString × FileTree) : Prop where
  includes : s.Includes dir dirent
  isLink : dirent.2.isLink = true
  followSymlinks : s.followSymlinks = true

/-- A link that is followed to its target. -/
structure Follows (s : Scan) (dir : JsString) (dirent : JsString × FileTree)
    (target : List JsString) : Prop extends s.Considers dir dirent where
  realpath : s.fs.realpath (fullPath dir dirent) = .ok target
  passes : s.passesContainment target = true

/-- The entry of a file that is backed up. -/
def found (s : Scan) (dir : JsString) (dirent : JsString × FileTree) (size : ℕ) (linked : Bool) :
    PersistentFileEntry :=
  ⟨fullPath dir dirent, s.relPath (fullPath dir dirent), size, linked⟩

/-- Each way to a verdict. -/
inductive Judged (s : Scan) (dir : JsString) (dirent : JsString × FileTree) : Verdict → Prop
  | excluded (h : ¬ s.Includes dir dirent) : Judged s dir dirent .exclude
  | unfollowed (hlink : dirent.2.isLink = true) (h : s.followSymlinks = false) :
      Judged s dir dirent .ignore
  | broken {e : Errno} (h : s.Considers dir dirent)
      (hreal : s.fs.realpath (fullPath dir dirent) = .error e) : Judged s dir dirent .ignore
  | escaping {target : List JsString} (h : s.Considers dir dirent)
      (hreal : s.fs.realpath (fullPath dir dirent) = .ok target)
      (hpasses : s.passesContainment target = false) : Judged s dir dirent .ignore
  | lost {target : List JsString} {e : Errno} (h : s.Follows dir dirent target)
      (hstat : s.fs.stat (fullPath dir dirent) (pathText target) = .error e) :
      Judged s dir dirent .ignore
  | linkDirectory {target : List JsString} {entries : List (JsString × FileTree)}
      (h : s.Follows dir dirent target) (hstat : s.fs.stat (fullPath dir dirent)
        (pathText target) = .ok (.directory entries)) : Judged s dir dirent (.enter true)
  | linkFile {target : List JsString} {size : ℕ} (h : s.Follows dir dirent target)
      (hstat : s.fs.stat (fullPath dir dirent) (pathText target) = .ok (.file size)) :
      Judged s dir dirent (.push (s.found dir dirent size true))
  | linkOther {target : List JsString} {t : FileTree} (h : s.Follows dir dirent target)
      (hstat : s.fs.stat (fullPath dir dirent) (pathText target) = .ok t)
      (hdirectory : t.isDirectory = false) (hfile : ∀ size, t ≠ .file size) :
      Judged s dir dirent .pass
  | directory (h : s.Includes dir dirent) (hdirectory : dirent.2.isDirectory = true) :
      Judged s dir dirent (.enter false)
  | file {size : ℕ} (h : s.Includes dir dirent) (hfile : dirent.2 = .file size)
      (hlstat : s.fs.lstat (fullPath dir dirent) dirent.2 = .ok dirent.2) :
      Judged s dir dirent (.push (s.found dir dirent size false))
  | unreadable {size : ℕ} {e : Errno} (h : s.Includes dir dirent) (hfile : dirent.2 = .file size)
      (hlstat : s.fs.lstat (fullPath dir dirent) dirent.2 = .error e) :
      Judged s dir dirent (.fail (e.thrown "lstat" (fullPath dir dirent)))
  | other (h : dirent.2 = .other) : Judged s dir dirent .pass

/-- The verdict on a link comes about in one of these ways. -/
theorem judged_linkVerdict (h : s.Considers dir dirent) :
    s.Judged dir dirent (s.linkVerdict (fullPath dir dirent)) := by
  unfold linkVerdict
  cases hreal : s.fs.realpath (fullPath dir dirent) with
  | error e => exact .broken h hreal
  | ok target =>
    dsimp only
    cases hpasses : s.passesContainment target with
    | false => exact .escaping h hreal hpasses
    | true =>
      have hfollows : s.Follows dir dirent target := ⟨h, hreal, hpasses⟩
      rw [if_neg (by decide)]
      cases hstat : s.fs.stat (fullPath dir dirent) (pathText target) with
      | error e => exact .lost hfollows hstat
      | ok t =>
        cases t with
        | directory entries => exact .linkDirectory hfollows hstat
        | file size => exact .linkFile hfollows hstat
        | _ => exact .linkOther hfollows hstat rfl (by simp)

/-- Each verdict comes about in one of these ways. -/
theorem judged_verdict (s : Scan) (dir : JsString) (dirent : JsString × FileTree) :
    s.Judged dir dirent (s.verdict dir dirent) := by
  obtain ⟨name, child⟩ := dirent
  unfold verdict
  cases hincludes : isPathExcluded (s.relPath (fullPath dir (name, child))) s.exclusions with
  | true => exact .excluded (by unfold Includes; rw [hincludes]; decide)
  | false =>
    rw [if_neg Bool.false_ne_true]
    cases child with
    | directory entries => exact .directory hincludes rfl
    | link target =>
      cases hfollow : s.followSymlinks with
      | false => exact .unfollowed rfl hfollow
      | true => exact judged_linkVerdict ⟨hincludes, rfl, hfollow⟩
    | file size =>
      cases hlstat : s.fs.lstat (fullPath dir (name, .file size)) (.file size) with
      | error e => exact .unreadable hincludes rfl hlstat
      | ok fileStat =>
        have heq : fileStat = .file size := by
          unfold lstat at hlstat
          split at hlstat <;> cases hlstat
          rfl
        subst heq
        exact .file hincludes rfl hlstat
    | other => exact .other rfl

/-- Where an entry leads: a link that is followed to its target, another entry to itself. -/
def Resolves (s : Scan) (dir : JsString) (loc : List JsString) (dirent : JsString × FileTree)
    (linked : Bool) (target : List JsString) : Prop :=
  (linked = false ∧ target = loc ++ [dirent.1]) ∨ (linked = true ∧ s.Follows dir dirent target)

section Targets

variable (hroot : (s.fs.tree.get s.canonicalRoot).any isDirectory = true)
  {names loc : List JsString} (h : s.At dir names loc) (hlist : s.fs.readdir dir = .ok dirents)
  (hmem : dirent ∈ dirents)

include hroot h hlist hmem

/-- An entry that `walk` is called on leads to a directory. -/
theorem At.enter {linked : Bool} (henter : s.verdict dir dirent = .enter linked) :
    ∃ target, s.At (fullPath dir dirent) (names ++ [dirent.1]) target ∧
      (s.fs.tree.get target).any isDirectory = true ∧
      s.Resolves dir loc dirent linked target := by
  obtain ⟨hname, hentry⟩ := h.entry hroot hlist hmem
  have hjudged := s.judged_verdict dir dirent
  rw [henter] at hjudged
  cases hjudged with
  | linkDirectory hfollows hstat =>
    have hchild := h.child hroot hname (h.leads_of_realpath hroot hname hfollows.realpath)
    refine ⟨_, hchild, ?_, .inr ⟨rfl, hfollows⟩⟩
    rw [hchild.get_of_stat hroot hstat]
    rfl
  | directory hincludes hdirectory =>
    have hlink : dirent.2.isLink = false := by
      obtain ⟨entries, hentries⟩ := isDirectory_iff.mp hdirectory
      rw [hentries]
      rfl
    have hchild := h.child hroot hname (h.leads_entry hroot hlist hmem hlink)
    refine ⟨_, hchild, ?_, .inl ⟨rfl, rfl⟩⟩
    rw [hentry, Option.any_some, hdirectory]

/-- An entry that is pushed leads to a file. -/
theorem At.push {entry : PersistentFileEntry} (hpush : s.verdict dir dirent = .push entry) :
    ∃ target size linked, s.At (fullPath dir dirent) (names ++ [dirent.1]) target ∧
      s.fs.tree.get target = some (.file size) ∧ entry = s.found dir dirent size linked ∧
      s.Resolves dir loc dirent linked target := by
  obtain ⟨hname, hentry⟩ := h.entry hroot hlist hmem
  have hjudged := s.judged_verdict dir dirent
  rw [hpush] at hjudged
  cases hjudged with
  | linkFile hfollows hstat =>
    have hchild := h.child hroot hname (h.leads_of_realpath hroot hname hfollows.realpath)
    exact ⟨_, _, true, hchild, hchild.get_of_stat hroot hstat, rfl, .inr ⟨rfl, hfollows⟩⟩
  | file hincludes hfile hlstat =>
    have hlink : dirent.2.isLink = false := by rw [hfile]; rfl
    have hchild := h.child hroot hname (h.leads_entry hroot hlist hmem hlink)
    rw [hfile] at hentry
    exact ⟨_, _, false, hchild, hentry, rfl, .inl ⟨rfl, rfl⟩⟩

end Targets

/-- A call is made on a path of the walk that leads to a directory. -/
theorem at_of_entered (hroot : (s.fs.tree.get s.canonicalRoot).any isDirectory = true)
    (h : s.Entered (dir :: chain) behind) : ∃ names loc, s.At dir names loc ∧
      (s.fs.tree.get loc).any isDirectory = true := by
  generalize hpath : dir :: chain = path at h
  induction h generalizing dir chain with
  | root =>
    obtain ⟨rfl, rfl⟩ := cons_eq_cons.mp hpath
    exact ⟨[], _, s.at_root, hroot⟩
  | call hdir hlist hmem henter ih =>
    obtain ⟨rfl, rfl⟩ := cons_eq_cons.mp hpath
    obtain ⟨names, loc, hat, -⟩ := ih rfl
    obtain ⟨target, hchild, hdirectory, -⟩ := hat.enter hroot hlist hmem henter
    exact ⟨_, target, hchild, hdirectory⟩

/-- The files of a result are those the walk found below the canonical root. -/
theorem mem_of_finish {result : PersistentFilesScanResult} (h : s.finish (out, st) = .ok result) :
    out = .ok () ∧ result.canonicalRoot = s.canonicalRoot ∧
      ∀ entry, entry ∈ result.files ↔ entry ∈ st.entries := by
  unfold finish at h
  cases out with
  | error e => cases h
  | ok u =>
    dsimp only at h
    split at h
    · cases h
    · cases h
      exact ⟨rfl, rfl, fun entry => mem_insertionSort _⟩

end Scan

end ZimaControl
