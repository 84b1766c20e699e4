import ZimaControl.Backup.ScanContained

/-!
# What a scan leaves out

A scan is meant to find each regular file below the root that is reached over directories that are
not excluded, and, with links, over links to something below the root (`Scan.Captures`). What is
thrown while a link is followed counts as a broken link, and that takes in the whole walk of the
directory behind it: a directory that cannot be listed there, or a file that cannot be looked at, is
left out without a word, with everything that would have come after it.

A scan that returns is exact if no call for a link or behind one fails except on a link that leads
nowhere, and no file is reached over a link whose target only looks as if it was below the root
(`scan_exact_iff`). Without links nothing is left out.
-/

namespace ZimaControl

open FileTree FileSystem

namespace Scan

/-- The entry of a file under these names. -/
def entryAt (s : Scan) (names : List JsString) (size : ℕ) (linked : Bool) : PersistentFileEntry :=
  ⟨pathText (s.canonicalRoot ++ names), slashes (Posix.joinSegments names), size, linked⟩

/-- These names are not excluded. -/
def Admits (s : Scan) (names : List JsString) : Prop :=
  isPathExcluded (slashes (Posix.joinSegments names)) s.exclusions = false

/-- The files reached over an entry of a directory, where links are followed to what is contained.
-/
inductive Captures (s : Scan) (contained : List JsString → Prop) :
    List JsString → List JsString → JsString → PersistentFileEntry → Prop
  | file {names loc : List JsString} {name : JsString} {size : ℕ}
      (hadmits : s.Admits (names ++ [name]))
      (hget : s.fs.tree.get (loc ++ [name]) = some (.file size)) :
      Captures s contained names loc name (s.entryAt (names ++ [name]) size false)
  | directory {names loc : List JsString} {name next : JsString}
      {entries : List (JsString × FileTree)} {entry : PersistentFileEntry}
      (hadmits : s.Admits (names ++ [name]))
      (hget : s.fs.tree.get (loc ++ [name]) = some (.directory entries))
      (hnext : Captures s contained (names ++ [name]) (loc ++ [name]) next entry) :
      Captures s contained names loc name entry
  | linkFile {names loc target : List JsString} {name text : JsString} {size : ℕ}
      (hadmits : s.Admits (names ++ [name])) (hfollow : s.followSymlinks = true)
      (hget : s.fs.tree.get (loc ++ [name]) = some (.link text))
      (hleads : s.fs.tree.Leads loc [name] target) (hcontained : contained target)
      (hfile : s.fs.tree.get target = some (.file size)) :
      Captures s contained names loc name (s.entryAt (names ++ [name]) size true)
  | linkDirectory {names loc target : List JsString} {name next text : JsString}
      {entries : List (JsString × FileTree)} {entry : PersistentFileEntry}
      (hadmits : s.Admits (names ++ [name])) (hfollow : s.followSymlinks = true)
      (hget : s.fs.tree.get (loc ++ [name]) = some (.link text))
      (hleads : s.fs.tree.Leads loc [name] target) (hcontained : contained target)
      (hdirectory : s.fs.tree.get target = some (.directory entries))
      (hnext : Captures s contained (names ++ [name]) target next entry) :
      Captures s contained names loc name entry

variable {s : Scan} {contained : List JsString → Prop} {names loc : List JsString}
  {name dir : JsString} {chain : List JsString} {behind : Bool} {entry : PersistentFileEntry}
  {dirent : JsString × FileTree} {dirents : List (JsString × FileTree)}

/-- If more is contained, more is captured. -/
theorem Captures.mono {contained' : List JsString → Prop}
    (hmono : ∀ target, s.fs.tree.IsReal target → contained target → contained' target)
    (h : s.Captures contained names loc name entry) : s.Captures contained' names loc name entry := by
  induction h with
  | file hadmits hget => exact .file hadmits hget
  | directory hadmits hget hnext ih => exact .directory hadmits hget ih
  | linkFile hadmits hfollow hget hleads hcontained hfile =>
    exact .linkFile hadmits hfollow hget hleads (hmono _ ⟨_, hfile, rfl⟩ hcontained) hfile
  | linkDirectory hadmits hfollow hget hleads hcontained hdirectory hnext ih =>
    exact .linkDirectory hadmits hfollow hget hleads (hmono _ ⟨_, hdirectory, rfl⟩ hcontained)
      hdirectory ih

/-- What is captured is not excluded, and stands under its name. -/
theorem Captures.admits (h : s.Captures contained names loc name entry) :
    s.Admits (names ++ [name]) ∧ ∃ t, s.fs.tree.get (loc ++ [name]) = some t := by
  cases h with
  | file hadmits hget => exact ⟨hadmits, _, hget⟩
  | directory hadmits hget _ => exact ⟨hadmits, _, hget⟩
  | linkFile hadmits _ hget _ _ _ => exact ⟨hadmits, _, hget⟩
  | linkDirectory hadmits _ hget _ _ _ _ => exact ⟨hadmits, _, hget⟩

/-- What is captured over an entry: a file, what is in a directory, and over a link its target or
what is in it. -/
theorem captures_iff {t : FileTree} (hget : s.fs.tree.get (loc ++ [name]) = some t) :
    s.Captures contained names loc name entry ↔ s.Admits (names ++ [name]) ∧
      match t with
      | .file size => entry = s.entryAt (names ++ [name]) size false
      | .directory _ => ∃ next, s.Captures contained (names ++ [name]) (loc ++ [name]) next entry
      | .link _ => s.followSymlinks = true ∧ ∃ target, s.fs.tree.Leads loc [name] target ∧
          contained target ∧ ((∃ size, s.fs.tree.get target = some (.file size) ∧
              entry = s.entryAt (names ++ [name]) size true) ∨
            ∃ entries next, s.fs.tree.get target = some (.directory entries) ∧
              s.Captures contained (names ++ [name]) target next entry)
      | .other => False := by
  constructor
  · intro h
    cases h with
    | file hadmits hget' =>
      cases hget.symm.trans hget'
      exact ⟨hadmits, rfl⟩
    | directory hadmits hget' hnext =>
      cases hget.symm.trans hget'
      exact ⟨hadmits, _, hnext⟩
    | linkFile hadmits hfollow hget' hleads hcontained hfile =>
      cases hget.symm.trans hget'
      exact ⟨hadmits, hfollow, _, hleads, hcontained, .inl ⟨_, hfile, rfl⟩⟩
    | linkDirectory hadmits hfollow hget' hleads hcontained hdirectory hnext =>
      cases hget.symm.trans hget'
      exact ⟨hadmits, hfollow, _, hleads, hcontained, .inr ⟨_, _, hdirectory, hnext⟩⟩
  · rintro ⟨hadmits, h⟩
    cases t with
    | file size => exact h ▸ .file hadmits hget
    | directory entries =>
      obtain ⟨next, hnext⟩ := h
      exact .directory hadmits hget hnext
    | link text =>
      obtain ⟨hfollow, target, hleads, hcontained, ⟨size, hfile, rfl⟩ |
        ⟨entries, next, hdirectory, hnext⟩⟩ := h
      · exact .linkFile hadmits hfollow hget hleads hcontained hfile
      · exact .linkDirectory hadmits hfollow hget hleads hcontained hdirectory hnext
    | other => cases h

/-! ## Read errors -/

/-- The directory cannot be listed, or a file in it cannot be looked at. -/
def HasError (s : Scan) (dir : JsString) : Prop :=
  (∃ e, s.fs.readdir dir = .error e) ∨
    ∃ dirents dirent size e, s.fs.readdir dir = .ok dirents ∧ dirent ∈ dirents ∧
      s.Includes dir dirent ∧ dirent.2 = .file size ∧
      s.fs.lstat (fullPath dir dirent) dirent.2 = .error e

/-- A link that leads somewhere cannot be resolved, or its target cannot be looked at. -/
def HasLinkError (s : Scan) (dir : JsString) : Prop :=
  ∃ dirents dirent e, s.fs.readdir dir = .ok dirents ∧ dirent ∈ dirents ∧ s.Considers dir dirent ∧
    ((∃ target, s.fs.realpath (fullPath dir dirent) = .error e ∧
        s.fs.LeadsTo (fullPath dir dirent) target) ∨
      ∃ target, s.Follows dir dirent target ∧
        s.fs.stat (fullPath dir dirent) (pathText target) = .error e)

/-- No call fails in a directory that is entered. -/
def Undisturbed (s : Scan) : Prop :=
  ∀ dir chain behind, s.Entered (dir :: chain) behind → ¬ s.HasError dir ∧ ¬ s.HasLinkError dir

/-- The text of the target starts with the text of the root. -/
def LooksContained (s : Scan) (target : List JsString) : Prop := s.passesContainment target = true

/-- These files were found in between. -/
def Gains (st st' : ScanState) (P : PersistentFileEntry → Prop) : Prop :=
  ∀ entry, entry ∈ st'.entries ↔ entry ∈ st.entries ∨ P entry

variable {st st' st'' : ScanState} {P Q : PersistentFileEntry → Prop}
  {out : Except BackupFailure Unit} {recur : JsString → ScanState → WalkResult}

/-- Nothing was found. -/
theorem Gains.of_not (hentries : st'.entries = st.entries) (h : ∀ entry, ¬ P entry) :
    Gains st st' P := by
  intro entry
  rw [hentries, or_iff_left (h entry)]

/-- One file was found. -/
theorem Gains.push (h : ∀ entry', P entry' ↔ entry' = entry) : Gains st (st.push entry) P := by
  intro entry'
  rw [h]
  unfold ScanState.push
  rw [List.mem_append, List.mem_singleton]

/-- Some were found, and then others. -/
theorem Gains.trans (h : Gains st st' P) (h' : Gains st' st'' Q) :
    Gains st st'' fun entry => P entry ∨ Q entry := by
  intro entry
  rw [h' entry, h entry, or_assoc]

/-- The same files in other words. -/
theorem Gains.congr (h : Gains st st' P) (hiff : ∀ entry, P entry ↔ Q entry) : Gains st st' Q := by
  intro entry
  rw [h entry, hiff entry]

/-- The loop over a directory finds what is captured over its entries. -/
theorem visitAll_captures {list : List (JsString × FileTree)}
    (hvisit : ∀ dirent ∈ list, ∀ st out st', s.visit recur dir dirent st = some (out, st') →
      out = .ok () ∧ Gains st st' (s.Captures s.LooksContained names loc dirent.1))
    (h : s.visitAll recur dir list st = some (out, st')) :
    out = .ok () ∧ Gains st st' fun entry =>
      ∃ dirent ∈ list, s.Captures s.LooksContained names loc dirent.1 entry := by
  induction list generalizing st with
  | nil =>
    cases h
    exact ⟨rfl, .of_not rfl (by simp)⟩
  | cons dirent list ih =>
    obtain ⟨hfirst, hrest⟩ := List.forall_mem_cons.mp hvisit
    obtain ⟨next, hnext, heq⟩ | ⟨hstop, heq⟩ := visitAll_cons (s := s) recur dir dirent list st
    · rw [heq] at h
      obtain ⟨-, hgains⟩ := hfirst _ _ _ hnext
      obtain ⟨hok, hgains'⟩ := ih hrest h
      refine ⟨hok, (hgains.trans hgains').congr fun entry => ?_⟩
      simp
    · rw [heq] at h
      obtain ⟨rfl, -⟩ := hfirst _ _ _ h
      exact absurd h (hstop st')

section Exact

variable (hroot : (s.fs.tree.get s.canonicalRoot).any isDirectory = true)
  (hundisturbed : s.Undisturbed)

include hroot

section

variable (hat : s.At dir names loc)
include hat

/-- An entry is excluded by its names. -/
theorem At.admits_iff (hname : Posix.IsName dirent.1) :
    s.Includes dir dirent ↔ s.Admits (names ++ [dirent.1]) := by
  unfold Includes Admits
  rw [hat.relPath_eq hroot hname]

/-- The entry of a file that is found. -/
theorem At.found_eq (hname : Posix.IsName dirent.1) (size : ℕ) (linked : Bool) :
    s.found dir dirent size linked = s.entryAt (names ++ [dirent.1]) size linked := by
  unfold found entryAt
  rw [hat.relPath_eq hroot hname, hat.fullPath_eq hroot hname]

/-- Over a link that is looked at, what its target gives is captured. -/
theorem At.captures_considered (hlist : s.fs.readdir dir = .ok dirents) (hmem : dirent ∈ dirents)
    (hlink : dirent.2.isLink = true) (h : s.Captures s.LooksContained names loc dirent.1 entry) :
    s.followSymlinks = true ∧
      ∃ target, s.fs.tree.Leads loc [dirent.1] target ∧ s.LooksContained target ∧
        ((∃ size, s.fs.tree.get target = some (.file size) ∧
            entry = s.entryAt (names ++ [dirent.1]) size true) ∨
          ∃ entries next, s.fs.tree.get target = some (.directory entries) ∧
            s.Captures s.LooksContained (names ++ [dirent.1]) target next entry) := by
  obtain ⟨-, hentry⟩ := hat.entry hroot hlist hmem
  obtain ⟨text, hchild⟩ := isLink_iff.mp hlink
  rw [hchild] at hentry
  exact ((captures_iff hentry).mp h).2

/-- Over a link that is followed, its target is captured, or what is captured in it. -/
theorem At.captures_followed_iff (hlist : s.fs.readdir dir = .ok dirents) (hmem : dirent ∈ dirents)
    {target : List JsString} (hfollows : s.Follows dir dirent target) {t : FileTree}
    (hget : s.fs.tree.get target = some t) :
    s.Captures s.LooksContained names loc dirent.1 entry ↔
      (∃ size, t = .file size ∧ entry = s.found dir dirent size true) ∨
        ∃ entries next, t = .directory entries ∧
          s.Captures s.LooksContained (names ++ [dirent.1]) target next entry := by
  obtain ⟨hname, hentry⟩ := hat.entry hroot hlist hmem
  have hleads := hat.leads_of_realpath hroot hname hfollows.realpath
  constructor
  · intro h
    obtain ⟨-, target', hleads', -, hcases⟩ :=
      hat.captures_considered hroot hlist hmem hfollows.isLink h
    rw [hleads'.unique hleads, hget] at hcases
    obtain ⟨size, hfile, rfl⟩ | ⟨entries, next, hdirectory, hnext⟩ := hcases
    · exact .inl ⟨size, Option.some.inj hfile, (hat.found_eq hroot hname size true).symm⟩
    · exact .inr ⟨entries, next, Option.some.inj hdirectory, hnext⟩
  · intro h
    obtain ⟨text, hchild⟩ := isLink_iff.mp hfollows.isLink
    have hadmits := (hat.admits_iff hroot hname).mp hfollows.includes
    rw [hchild] at hentry
    obtain ⟨size, rfl, rfl⟩ | ⟨entries, next, rfl, hnext⟩ := h
    · rw [hat.found_eq hroot hname]
      exact .linkFile hadmits hfollows.followSymlinks hentry hleads hfollows.passes hget
    · exact .linkDirectory hadmits hfollows.followSymlinks hentry hleads hfollows.passes hget hnext

end

include hundisturbed

/-- A visit finds what is captured over the entry. -/
theorem visit_captures (hat : s.At dir names loc) (hdir : s.Entered (dir :: chain) behind)
    (hlist : s.fs.readdir dir = .ok dirents) (hmem : dirent ∈ dirents)
    (hrecur : ∀ target linked, s.verdict dir dirent = .enter linked →
      s.At (fullPath dir dirent) (names ++ [dirent.1]) target →
      ∀ st out st', recur (fullPath dir dirent) st = some (out, st') → out = .ok () ∧
        Gains st st' fun entry =>
          ∃ next, s.Captures s.LooksContained (names ++ [dirent.1]) target next entry)
    (hvisit : s.visit recur dir dirent st = some (out, st')) :
    out = .ok () ∧ Gains st st' (s.Captures s.LooksContained names loc dirent.1) := by
  obtain ⟨hname, hentry⟩ := hat.entry hroot hlist hmem
  obtain ⟨hnoError, hnoLinkError⟩ := hundisturbed dir chain behind hdir
  have hadmits := hat.admits_iff hroot hname
  have hjudged := s.judged_verdict dir dirent
  rw [visit_eq] at hvisit
  generalize s.verdict dir dirent = verdict at hjudged hvisit hrecur
  cases hjudged with
  -- four verdicts leave the entry out, and nothing is captured over it
  | excluded hexcluded =>
    cases hvisit
    exact ⟨rfl, .of_not rfl fun entry h => hexcluded (hadmits.mpr h.admits.1)⟩
  | unfollowed hlink hfollow =>
    cases hvisit
    refine ⟨rfl, .of_not rfl fun entry h => ?_⟩
    obtain ⟨hfollow', -⟩ := hat.captures_considered hroot hlist hmem hlink h
    rw [hfollow] at hfollow'
    cases hfollow'
  | broken hconsiders hreal =>
    cases hvisit
    refine ⟨rfl, .of_not rfl fun entry h => ?_⟩
    obtain ⟨-, target, hleads, -⟩ := hat.captures_considered hroot hlist hmem hconsiders.isLink h
    exact hnoLinkError ⟨dirents, dirent, _, hlist, hmem, hconsiders,
      .inl ⟨target, hreal, (hat.child hroot hname hleads).leadsTo hroot⟩⟩
  | escaping hconsiders hreal hpasses =>
    cases hvisit
    refine ⟨rfl, .of_not rfl fun entry h => ?_⟩
    obtain ⟨-, target, hleads, hcontained, -⟩ :=
      hat.captures_considered hroot hlist hmem hconsiders.isLink h
    rw [LooksContained, hleads.unique (hat.leads_of_realpath hroot hname hreal), hpasses] at hcontained
    cases hcontained
  -- a target that cannot be looked at is a read error
  | lost hfollows hstat =>
    exact absurd ⟨dirents, dirent, _, hlist, hmem, hfollows.toConsiders, .inr ⟨_, hfollows, hstat⟩⟩
      hnoLinkError
  | linkDirectory hfollows hstat =>
    -- Nothing is thrown behind the link, so nothing is caught.
    have hchild := hat.child hroot hname (hat.leads_of_realpath hroot hname hfollows.realpath)
    have hget := hchild.get_of_stat hroot hstat
    cases hwalk : recur (fullPath dir dirent) st with
    | none =>
      rw [Verdict.apply, hwalk] at hvisit
      cases hvisit
    | some result =>
      obtain ⟨out', st''⟩ := result
      obtain ⟨rfl, hgains⟩ := hrecur _ true rfl hchild st out' st'' hwalk
      rw [Verdict.apply, hwalk] at hvisit
      cases hvisit
      refine ⟨rfl, hgains.congr fun entry => ?_⟩
      rw [hat.captures_followed_iff hroot hlist hmem hfollows hget]
      simp
  | linkFile hfollows hstat =>
    cases hvisit
    have hchild := hat.child hroot hname (hat.leads_of_realpath hroot hname hfollows.realpath)
    refine ⟨rfl, .push fun entry => ?_⟩
    rw [hat.captures_followed_iff hroot hlist hmem hfollows (hchild.get_of_stat hroot hstat)]
    simp
  | linkOther hfollows hstat hdirectory hfile =>
    cases hvisit
    have hchild := hat.child hroot hname (hat.leads_of_realpath hroot hname hfollows.realpath)
    refine ⟨rfl, .of_not rfl fun entry h => ?_⟩
    rw [hat.captures_followed_iff hroot hlist hmem hfollows (hchild.get_of_stat hroot hstat)] at h
    obtain ⟨size, heq, -⟩ | ⟨entries, next, rfl, -⟩ := h
    · exact hfile size heq
    · cases hdirectory
  | directory hincludes hdirectory =>
    obtain ⟨entries, hchild⟩ := isDirectory_iff.mp hdirectory
    have hlink : dirent.2.isLink = false := by rw [hchild]; rfl
    have hat' := hat.child hroot hname (hat.leads_entry hroot hlist hmem hlink)
    obtain ⟨hok, hgains⟩ := hrecur _ false rfl hat' st out st' hvisit
    rw [hchild] at hentry
    refine ⟨hok, hgains.congr fun entry => ?_⟩
    rw [captures_iff hentry, and_iff_right (hadmits.mp hincludes)]
  | file hincludes hfile hlstat =>
    cases hvisit
    rw [hfile] at hentry
    refine ⟨rfl, .push fun entry => ?_⟩
    rw [captures_iff hentry, and_iff_right (hadmits.mp hincludes), hat.found_eq hroot hname]
  | unreadable hincludes hfile hlstat =>
    exact absurd (.inr ⟨dirents, dirent, _, _, hlist, hmem, hincludes, hfile, hlstat⟩) hnoError
  | other hother =>
    cases hvisit
    rw [hother] at hentry
    exact ⟨rfl, .of_not rfl fun entry h => ((captures_iff hentry).mp h).2⟩

/-- The walk finds what is captured in its directory. -/
theorem walk_captures (depth : ℕ) (hat : s.At dir names loc)
    (hdir : s.Entered (dir :: chain) behind) (h : s.walk depth dir st = some (out, st')) :
    out = .ok () ∧ Gains st st' fun entry =>
      ∃ name, s.Captures s.LooksContained names loc name entry := by
  induction depth generalizing dir chain behind names loc st out st' with
  | zero => cases h
  | succ depth ih =>
    obtain ⟨e, hlist, -⟩ | ⟨dirents, hlist, heq⟩ := walk_succ s depth dir st
    · exact absurd (.inl ⟨e, hlist⟩) (hundisturbed dir chain behind hdir).1
    rw [heq] at h
    have hget := hat.get_of_readdir hroot hlist
    obtain ⟨hok, hgains⟩ := visitAll_captures (fun dirent hmem st out st' hvisit =>
      visit_captures hroot hundisturbed hat hdir hlist (mem_sorted.mp hmem)
        (fun target linked henter hchild st out st' hwalk =>
          ih hchild (hdir.call hlist (mem_sorted.mp hmem) henter) hwalk) hvisit) h
    refine ⟨hok, hgains.congr fun entry => ⟨?_, ?_⟩⟩
    · rintro ⟨dirent, -, hcaptures⟩
      exact ⟨dirent.1, hcaptures⟩
    · rintro ⟨name, hcaptures⟩
      obtain ⟨-, t, hentry⟩ := hcaptures.admits
      refine ⟨(name, t), mem_sorted.mpr ?_, hcaptures⟩
      exact (get_entry_iff s.fs.wellFormed hget).mpr hentry

end Exact

/-! ## Scans that return -/

/-- No call fails for a link or behind one, except on a link that leads nowhere. -/
def LinksUndisturbed (s : Scan) : Prop :=
  ∀ dir chain behind, s.Entered (dir :: chain) behind →
    ¬ s.HasLinkError dir ∧ (behind = true → ¬ s.HasError dir)

/-- The files are exactly those that are captured over what is below the root. -/
def FindsExactly (s : Scan) (files : List PersistentFileEntry) : Prop :=
  ∀ entry, entry ∈ files ↔
    ∃ name, s.Captures (IsBelow s.canonicalRoot) [] s.canonicalRoot name entry

/-- A link that is looked at and skipped leads nowhere, or not below the root. -/
def SkipsOnly (s : Scan) : Prop :=
  ∀ dir chain behind dirents dirent, s.Entered (dir :: chain) behind →
    s.fs.readdir dir = .ok dirents → dirent ∈ dirents → s.Considers dir dirent →
    s.verdict dir dirent = .ignore → ∀ target, s.fs.LeadsTo (fullPath dir dirent) target →
      ¬ IsBelow s.canonicalRoot target

section

variable (hroot : (s.fs.tree.get s.canonicalRoot).any isDirectory = true)
include hroot

/-- What is below the root passes the test. -/
theorem looksContained_of_isBelow {target : List JsString} (hreal : s.fs.tree.IsReal target)
    (h : IsBelow s.canonicalRoot target) : s.LooksContained target := by
  obtain ⟨⟨rest, rfl⟩, hne⟩ := h
  have hrest : rest ≠ [] := by
    rintro rfl
    exact hne (List.append_nil _)
  have hnames := isName_of_isReal hreal
  obtain ⟨hstart, hlength⟩ := pathText_append s.canonicalRoot hrest
    fun name hmem => (hnames name (List.mem_append_right _ hmem)).ne_nil
  unfold LooksContained passesContainment normalizedText
  rw [normalize_pathText hnames, normalize_pathText (isName_root hroot),
    Bool.and_eq_true, List.isPrefixOf_iff_prefix, decide_eq_true_eq]
  refine ⟨hstart.map _, fun heq => ?_⟩
  have hsame := congrArg List.length heq
  unfold slashes at hsame
  rw [List.length_map, List.length_map] at hsame
  omega

/-- If no call fails, a link is skipped only if it leads nowhere or not below the root. -/
theorem skipsOnly_of_undisturbed (h : s.Undisturbed) : s.SkipsOnly := by
  intro dir chain behind dirents dirent hdir hlist hmem hconsiders hignore target hleads hbelow
  obtain ⟨-, hnoLinkError⟩ := h dir chain behind hdir
  obtain ⟨names, loc, hat, -⟩ := at_of_entered hroot hdir
  obtain ⟨hname, -⟩ := hat.entry hroot hlist hmem
  have hjudged := s.judged_verdict dir dirent
  rw [hignore] at hjudged
  cases hjudged with
  | unfollowed hlink hfollow =>
    have hfollow' := hconsiders.followSymlinks
    rw [hfollow] at hfollow'
    cases hfollow'
  | broken _ hreal =>
    exact hnoLinkError ⟨dirents, dirent, _, hlist, hmem, hconsiders, .inl ⟨target, hreal, hleads⟩⟩
  | escaping _ hreal hpasses =>
    have hchild := hat.child hroot hname (hat.leads_of_realpath hroot hname hreal)
    rw [hleads.unique (hchild.leadsTo hroot)] at hbelow
    have hpasses' := looksContained_of_isBelow hroot
      (hchild.leads.isReal (isReal_of_isDirectory hroot)) hbelow
    rw [LooksContained, hpasses] at hpasses'
    cases hpasses'
  | lost hfollows hstat =>
    exact hnoLinkError ⟨dirents, dirent, _, hlist, hmem, hconsiders, .inr ⟨_, hfollows, hstat⟩⟩

end

/-- A file that cannot be looked at stops the walk. -/
theorem verdict_of_unreadable {size : ℕ} {e : Errno} (hincludes : s.Includes dir dirent)
    (hfile : dirent.2 = .file size)
    (hlstat : s.fs.lstat (fullPath dir dirent) dirent.2 = .error e) :
    s.verdict dir dirent = .fail (e.thrown "lstat" (fullPath dir dirent)) := by
  unfold verdict
  rw [hincludes, if_neg Bool.false_ne_true, hlstat, hfile]

/-- In a directory whose walk returned nothing failed that is not about a link. -/
theorem not_hasError_of_walk {depth : ℕ} (h : s.walk depth dir st = some (.ok (), st')) :
    ¬ s.HasError dir := by
  cases depth with
  | zero => cases h
  | succ depth =>
    obtain ⟨e, -, heq⟩ | ⟨dirents, hlist, heq⟩ := walk_succ s depth dir st
    · rw [heq] at h
      cases h
    rw [heq] at h
    rintro (⟨e, hlist'⟩ | ⟨dirents', dirent, size, e, hlist', hmem, hincludes, hfile, hlstat⟩)
    · rw [hlist] at hlist'
      cases hlist'
    rw [hlist] at hlist'
    cases hlist'
    obtain ⟨st, st', hvisit⟩ := visit_returned h dirent (mem_sorted.mpr hmem)
    rw [visit_eq, verdict_of_unreadable hincludes hfile hlstat] at hvisit
    cases hvisit

/-- If the walk returns, the calls that may fail unnoticed are those for links and behind them. -/
theorem undisturbed_of_walk {depth : ℕ} (h : s.walk depth s.rootText st = some (.ok (), st'))
    (hlinks : s.LinksUndisturbed) : s.Undisturbed := by
  intro dir chain behind hdir
  obtain ⟨hnoLinkError, hbehindLink⟩ := hlinks dir chain behind hdir
  refine ⟨?_, hnoLinkError⟩
  cases hbehind : behind with
  | true => exact hbehindLink hbehind
  | false =>
    obtain ⟨dir', depth', st₁, st₂, hhead, hwalk⟩ := walk_returned h hdir hbehind
    cases hhead
    exact not_hasError_of_walk hwalk

end Scan

/-- The walk and the rest of a scan that returns. -/
theorem walk_of_scan {fs : FileSystem} {before : JsString → JsString → Bool} {rawHostPath : JsString}
    {exclusions : List JsString} {followSymlinks : Bool} {depth : ℕ}
    {result : PersistentFilesScanResult} {s : Scan}
    (hs : s = ⟨fs, result.canonicalRoot, exclusions, followSymlinks, before⟩)
    (h : scanPersistentFilesDirectory fs before rawHostPath exclusions followSymlinks depth =
      some (.ok result)) :
    (s.fs.tree.get s.canonicalRoot).any isDirectory = true ∧
      ∃ st, s.walk depth s.rootText ⟨[], 0, 0, 0⟩ = some (.ok (), st) ∧
        ∀ entry, entry ∈ result.files ↔ entry ∈ st.entries := by
  unfold scanPersistentFilesDirectory at h
  cases hroot : scanRoot fs rawHostPath with
  | error e =>
    rw [hroot] at h
    cases h
  | ok root =>
    rw [hroot] at h
    obtain ⟨⟨out, st⟩, hwalk, hfinish⟩ := Option.map_eq_some_iff.mp h
    obtain ⟨rfl, hcanonical, hfiles⟩ := Scan.mem_of_finish hfinish
    rw [hcanonical] at hs
    subst hs
    exact ⟨(found_of_scanRoot hroot).2, st, hwalk, hfiles⟩

/-- A scan that returns has found exactly what it should, skipped only links that lead nowhere or
not below the root, and met no other error, exactly if no call for a link or behind one failed other
than on a link that leads nowhere, and no file is captured only because a target outside of the root
looks contained. -/
theorem scan_exact_iff (fs : FileSystem) (before : JsString → JsString → Bool)
    (rawHostPath : JsString) (exclusions : List JsString) (followSymlinks : Bool) (depth : ℕ)
    {result : PersistentFilesScanResult} {s : Scan}
    (hs : s = ⟨fs, result.canonicalRoot, exclusions, followSymlinks, before⟩)
    (h : scanPersistentFilesDirectory fs before rawHostPath exclusions followSymlinks depth =
      some (.ok result)) :
    (s.FindsExactly result.files ∧ s.SkipsOnly ∧ s.Undisturbed) ↔
      s.LinksUndisturbed ∧ ∀ entry,
        (∃ name, s.Captures s.LooksContained [] s.canonicalRoot name entry) →
          ∃ name, s.Captures (IsBelow s.canonicalRoot) [] s.canonicalRoot name entry := by
  obtain ⟨hroot, st, hwalk, hfiles⟩ := walk_of_scan hs h
  -- Without errors the files are those over what looks contained.
  have hfound : s.Undisturbed → ∀ entry, entry ∈ result.files ↔
      ∃ name, s.Captures s.LooksContained [] s.canonicalRoot name entry := by
    intro hundisturbed entry
    obtain ⟨-, hgains⟩ := Scan.walk_captures hroot hundisturbed depth s.at_root .root hwalk
    rw [hfiles, hgains]
    simp
  constructor
  · rintro ⟨hexact, -, hundisturbed⟩
    refine ⟨fun dir chain behind hdir => ?_, fun entry hcaptures => ?_⟩
    · obtain ⟨hnoError, hnoLinkError⟩ := hundisturbed dir chain behind hdir
      exact ⟨hnoLinkError, fun _ => hnoError⟩
    · exact (hexact entry).mp ((hfound hundisturbed entry).mpr hcaptures)
  · rintro ⟨hlinks, hcontained⟩
    have hundisturbed := Scan.undisturbed_of_walk hwalk hlinks
    refine ⟨fun entry => ?_, Scan.skipsOnly_of_undisturbed hroot hundisturbed, hundisturbed⟩
    rw [hfound hundisturbed entry]
    refine ⟨hcontained entry, ?_⟩
    rintro ⟨name, hcaptures⟩
    exact ⟨name, hcaptures.mono fun target hreal => Scan.looksContained_of_isBelow hroot hreal⟩

/-- Of `innerLink` the file and the link to it are found. -/
theorem scan_exact_innerLink : ∃ result,
    scanPersistentFilesDirectory innerLink (fun _ _ => true) (js "/data/app") [] true 1 =
        some (.ok result) ∧
      (((appScan innerLink).FindsExactly result.files ∧ (appScan innerLink).SkipsOnly ∧
          (appScan innerLink).Undisturbed) ↔
        (appScan innerLink).LinksUndisturbed ∧ ∀ entry,
          (∃ name, (appScan innerLink).Captures (appScan innerLink).LooksContained []
              (appScan innerLink).canonicalRoot name entry) →
            ∃ name, (appScan innerLink).Captures (IsBelow (appScan innerLink).canonicalRoot) []
              (appScan innerLink).canonicalRoot name entry) := by
  have hscan : scanPersistentFilesDirectory innerLink (fun _ _ => true) (js "/data/app") [] true 1 =
      some (.ok ⟨[js "data", js "app"], [⟨js "/data/app/a", js "a", 3, false⟩,
        ⟨js "/data/app/b", js "b", 3, true⟩], 2, 6, 0, 0⟩) := by decide +kernel
  exact ⟨_, hscan, scan_exact_iff innerLink (fun _ _ => true) (js "/data/app") [] true 1 rfl hscan⟩

/-- A link to a directory that cannot be listed; the directory itself is excluded. -/
def closedDirectory : FileSystem where
  tree := .directory [(js "data", .directory [(js "app", .directory [
    (js "link", .link (js "closed")), (js "closed", .directory [(js "a", .file 3)])])])]
  cwd := []
  linkLimit := 40
  failure := fun op path =>
    if op = .readdir ∧ path = js "/data/app/link" then some (.other (js "EACCES")) else none
  wellFormed := by decide
  cwd_names := Posix.isName_nil

/-- The file behind the link is missing, and the scan returns. -/
theorem file_behind_link_left_out : ∃ result,
    scanPersistentFilesDirectory closedDirectory (fun _ _ => true) (js "/data/app") [js "closed"]
        true 2 = some (.ok result) ∧
      ¬ (Scan.mk closedDirectory result.canonicalRoot [js "closed"] true
        fun _ _ => true).FindsExactly result.files := by
  have hscan : scanPersistentFilesDirectory closedDirectory (fun _ _ => true) (js "/data/app")
      [js "closed"] true 2 = some (.ok ⟨[js "data", js "app"], [], 0, 0, 1, 1⟩) := by decide +kernel
  refine ⟨_, hscan, fun hexact => ?_⟩
  have hlookUp : closedDirectory.tree.lookUp 40 [js "data", js "app"] [js "link"] =
      .ok [js "data", js "app", js "closed"] := by decide +kernel
  have hfile : (Scan.mk closedDirectory [js "data", js "app"] [js "closed"] true
      fun _ _ => true).Captures (IsBelow [js "data", js "app"]) [js "link"]
        [js "data", js "app", js "closed"] (js "a") _ :=
    .file (by unfold Scan.Admits; decide +kernel) rfl
  have hlink : (Scan.mk closedDirectory [js "data", js "app"] [js "closed"] true
      fun _ _ => true).Captures (IsBelow [js "data", js "app"]) [] [js "data", js "app"]
        (js "link") _ :=
    .linkDirectory (by unfold Scan.Admits; decide +kernel) rfl rfl
      (leads_of_lookUp hlookUp) (by decide) rfl hfile
  exact absurd ((hexact _).mpr ⟨_, hlink⟩) List.not_mem_nil

end ZimaControl
