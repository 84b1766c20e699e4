import ZimaControl.Backup.ScanWalk

/-!
# Links and the root

A link is followed if the text of its target starts with the text of the root. That lets a sibling
pass whose name starts with the name of the root, and a link that leads back to a directory the walk
is in. The first puts files from outside into the result; behind the second the walk goes round
until the host refuses a path with that many links. If neither kind of link is followed, each file
of the result is below the root, no directory is entered twice along a chain of calls, and the
number of directories bounds the depth of the walk (`scan_contained`).
-/

namespace ZimaControl

open List FileTree

/-- A location below another one. -/
def IsBelow (root loc : List JsString) : Prop := root <+: loc ∧ loc ≠ root

instance (root loc : List JsString) : Decidable (IsBelow root loc) :=
  inferInstanceAs (Decidable (_ ∧ _))

/-- What is below something at or below the root is below the root. -/
theorem IsBelow.append {root loc : List JsString} (h : root <+: loc) (name : JsString) :
    IsBelow root (loc ++ [name]) := by
  refine ⟨h.trans (prefix_append _ _), fun heq => ?_⟩
  have hlength := h.length_le
  rw [← heq, length_append, length_singleton] at hlength
  omega

namespace Scan

variable {s : Scan} {dir : JsString} {chain : List JsString} {behind : Bool}
  {dirent : JsString × FileTree} {dirents : List (JsString × FileTree)}

/-- Each link that is followed leads below the root, and to no directory around an open call. -/
def LinksContained (s : Scan) : Prop :=
  ∀ dir chain behind dirents dirent target, s.Entered (dir :: chain) behind →
    s.fs.readdir dir = .ok dirents → dirent ∈ dirents → s.Follows dir dirent target →
    IsBelow s.canonicalRoot target ∧ ((s.fs.tree.get target).any isDirectory = true →
      ∀ caller ∈ dir :: chain, ∀ loc, s.fs.LeadsTo caller loc → ¬ target <+: loc)

/-- The open calls are at or below the root, and none is around an earlier one. -/
structure Trail (s : Scan) (places : List (JsString × List JsString)) : Prop where
  leads : ∀ place ∈ places, s.fs.LeadsTo place.1 place.2
  directories : ∀ place ∈ places, (s.fs.tree.get place.2).any isDirectory = true
  inside : ∀ place ∈ places, s.canonicalRoot <+: place.2
  fresh : places.Pairwise fun later earlier => ¬ later.2 <+: earlier.2

variable {places : List (JsString × List JsString)}

/-- A call goes on from the latest place of the trail. -/
theorem Trail.cons {place : JsString × List JsString} (h : s.Trail places)
    (hleads : s.fs.LeadsTo place.1 place.2)
    (hdirectory : (s.fs.tree.get place.2).any isDirectory = true)
    (hinside : s.canonicalRoot <+: place.2) (hfresh : ∀ earlier ∈ places, ¬ place.2 <+: earlier.2) :
    s.Trail (place :: places) where
  leads := forall_mem_cons.mpr ⟨hleads, h.leads⟩
  directories := forall_mem_cons.mpr ⟨hdirectory, h.directories⟩
  inside := forall_mem_cons.mpr ⟨hinside, h.inside⟩
  fresh := pairwise_cons.mpr ⟨hfresh, h.fresh⟩

/-- A trail has no place twice. -/
theorem Trail.distinct (h : s.Trail places) :
    places.Pairwise fun later earlier => later.2 ≠ earlier.2 := by
  refine h.fresh.imp fun hfresh heq => ?_
  rw [heq] at hfresh
  exact hfresh prefix_rfl

/-- A trail is not longer than there are directories. -/
theorem Trail.length_le (h : s.Trail places) : places.length ≤ s.fs.tree.directories.length := by
  have hnodup : (places.map (·.2)).Nodup := pairwise_map.mpr h.distinct
  have hsubset : places.map (·.2) ⊆ s.fs.tree.directories := by
    intro loc hloc
    obtain ⟨place, hplace, rfl⟩ := mem_map.mp hloc
    exact mem_directories (h.directories place hplace)
  have hlength := (subperm_of_subset hnodup hsubset).length_le
  rwa [length_map] at hlength

section Contained

variable (hroot : (s.fs.tree.get s.canonicalRoot).any isDirectory = true)
  (hlinks : s.LinksContained)

include hroot hlinks

/-- Each call leaves a trail. -/
theorem trail_of_entered (h : s.Entered chain behind) :
    ∃ places, places.map (·.1) = chain ∧ s.Trail places := by
  induction h with
  | root =>
    refine ⟨[(s.rootText, s.canonicalRoot)], rfl, ?_, ?_, ?_, pairwise_singleton _ _⟩
    · exact forall_mem_singleton.mpr (s.at_root.leadsTo hroot)
    · exact forall_mem_singleton.mpr hroot
    · exact forall_mem_singleton.mpr prefix_rfl
  | call hdir hlist hmem henter ih =>
    rename_i dir chain behind linked dirents dirent
    obtain ⟨places, hplaces, htrail⟩ := ih
    obtain ⟨names, loc, hat, -⟩ := at_of_entered hroot hdir
    obtain ⟨target, hchild, hdirectory, hresolves⟩ := hat.enter hroot hlist hmem henter
    refine ⟨(fullPath dir dirent, target) :: places, by rw [map_cons, hplaces], ?_⟩
    obtain ⟨-, rfl⟩ | ⟨-, hfollows⟩ := hresolves
    · -- Below the latest place is below no earlier one, for that would be below the latest.
      obtain ⟨latest, rest, rfl⟩ : ∃ latest rest, places = latest :: rest :=
        exists_cons_of_ne_nil fun hnil => by rw [hnil] at hplaces; cases hplaces
      have hfirst : latest.1 = dir := (cons_eq_cons.mp hplaces).1
      have hloc : latest.2 = loc := by
        have hleads := htrail.leads latest mem_cons_self
        rw [hfirst] at hleads
        exact hleads.unique (hat.leadsTo hroot)
      have hinside := htrail.inside latest mem_cons_self
      obtain ⟨hfresh, -⟩ := pairwise_cons.mp htrail.fresh
      rw [hloc] at hinside hfresh
      refine htrail.cons (hchild.leadsTo hroot) hdirectory (IsBelow.append hinside dirent.1).1 ?_
      refine forall_mem_cons.mpr ⟨fun hbelow => ?_, fun earlier hearlier hbelow => ?_⟩
      · have hlength := hbelow.length_le
        rw [hloc, length_append, length_singleton] at hlength
        omega
      · exact hfresh earlier hearlier ((prefix_append _ _).trans hbelow)
    · obtain ⟨hbelow, hfresh⟩ := hlinks dir chain behind dirents dirent target hdir hlist hmem hfollows
      refine htrail.cons (hchild.leadsTo hroot) hdirectory hbelow.1 fun earlier hearlier => ?_
      have hcaller : earlier.1 ∈ dir :: chain := hplaces ▸ mem_map_of_mem hearlier
      exact hfresh hdirectory earlier.1 hcaller earlier.2 (htrail.leads earlier hearlier)

/-- No directory is entered twice along a chain of calls. -/
theorem distinct_of_entered (h : s.Entered chain behind) :
    chain.Pairwise fun a b => ∀ loc, s.fs.LeadsTo a loc → ¬ s.fs.LeadsTo b loc := by
  obtain ⟨places, rfl, htrail⟩ := trail_of_entered hroot hlinks h
  rw [pairwise_map]
  refine List.Pairwise.imp_of_mem ?_ htrail.distinct
  intro later earlier hlater hearlier hne loc hleads hleads'
  rw [hleads.unique (htrail.leads later hlater)] at hleads'
  exact hne (hleads'.unique (htrail.leads earlier hearlier))

/-- The number of directories bounds the depth of the walk. -/
theorem walk_ne_none (st : ScanState) :
    s.walk s.fs.tree.directories.length s.rootText st ≠ none := by
  intro hnone
  obtain ⟨chain, behind, hentered, hlength⟩ := exists_chain_of_walk_eq_none _ .root hnone
  obtain ⟨places, rfl, htrail⟩ := trail_of_entered hroot hlinks hentered
  have hbound := htrail.length_le
  rw [length_map, length_nil] at hlength
  omega

/-- A file that is pushed is below the root. -/
theorem isBelow_of_push {entry : PersistentFileEntry} (hdir : s.Entered (dir :: chain) behind)
    (hlist : s.fs.readdir dir = .ok dirents) (hmem : dirent ∈ dirents)
    (hpush : s.verdict dir dirent = .push entry) :
    ∃ loc, s.fs.LeadsTo entry.absolutePath loc ∧ IsBelow s.canonicalRoot loc := by
  obtain ⟨names, loc, hat, -⟩ := at_of_entered hroot hdir
  obtain ⟨target, size, linked, hchild, -, rfl, hresolves⟩ := hat.push hroot hlist hmem hpush
  refine ⟨target, hchild.leadsTo hroot, ?_⟩
  obtain ⟨-, rfl⟩ | ⟨-, hfollows⟩ := hresolves
  · obtain ⟨places, hplaces, htrail⟩ := trail_of_entered hroot hlinks hdir
    obtain ⟨place, hplace, hfirst⟩ : ∃ place ∈ places, place.1 = dir := by
      rw [← mem_map, hplaces]
      exact mem_cons_self
    have hleads := htrail.leads place hplace
    rw [hfirst] at hleads
    have hinside := htrail.inside place hplace
    rw [hleads.unique (hat.leadsTo hroot)] at hinside
    exact IsBelow.append hinside dirent.1
  · exact (hlinks dir chain behind dirents dirent target hdir hlist hmem hfollows).1

end Contained

end Scan

/-- If each link that is followed leads below the root and to no directory around an open call, each
file of the result is below the root, no directory is entered twice along a chain of calls, and the
walk comes to an end at a depth that the tree alone determines. This is no equivalence: a link to an
empty directory beside the root adds nothing to the result. -/
theorem scan_contained (fs : FileSystem) (before : JsString → JsString → Bool)
    (rawHostPath : JsString) (exclusions : List JsString) (followSymlinks : Bool)
    {root : List JsString} (hroot : scanRoot fs rawHostPath = .ok root)
    (hlinks : (Scan.mk fs root exclusions followSymlinks before).LinksContained) :
    (∀ depth result, scanPersistentFilesDirectory fs before rawHostPath exclusions followSymlinks
        depth = some (.ok result) →
      ∀ file ∈ result.files, ∃ loc, fs.LeadsTo file.absolutePath loc ∧ IsBelow root loc) ∧
    (∀ chain behind, (Scan.mk fs root exclusions followSymlinks before).Entered chain behind →
      chain.Pairwise fun a b => ∀ loc, fs.LeadsTo a loc → ¬ fs.LeadsTo b loc) ∧
    scanPersistentFilesDirectory fs before rawHostPath exclusions followSymlinks
      fs.tree.directories.length ≠ none := by
  have hdirectory := (found_of_scanRoot hroot).2
  unfold scanPersistentFilesDirectory
  rw [hroot]
  dsimp only
  refine ⟨?_, fun chain behind h => Scan.distinct_of_entered hdirectory hlinks h, ?_⟩
  · intro depth result h file hfile
    obtain ⟨⟨out, st⟩, hwalk, hfinish⟩ := Option.map_eq_some_iff.mp h
    obtain ⟨-, -, hfiles⟩ := Scan.mem_of_finish hfinish
    refine Scan.walk_entries
      (P := fun file => ∃ loc, fs.LeadsTo file.absolutePath loc ∧ IsBelow root loc)
      ?_ depth .root ?_ hwalk file ((hfiles file).mp hfile)
    · intro dir chain behind dirents dirent entry
      exact Scan.isBelow_of_push hdirectory hlinks
    · exact fun _ hmem => absurd hmem not_mem_nil
  · intro hnone
    exact Scan.walk_ne_none hdirectory hlinks _ (Option.map_eq_none_iff.mp hnone)

/-- A file system with a link to a file next to it. -/
def innerLink : FileSystem where
  tree := .directory [(js "data", .directory [(js "app", .directory
    [(js "a", .file 3), (js "b", .link (js "a"))])])]
  cwd := []
  linkLimit := 40
  failure := fun _ _ => none
  wellFormed := by decide
  cwd_names := Posix.isName_nil

/-- A file system with a link to a file in a sibling of the root. -/
def siblingLink : FileSystem where
  tree := .directory [(js "data", .directory [
    (js "app", .directory [(js "leak", .link (js "/data/app-evil/secret"))]),
    (js "app-evil", .directory [(js "secret", .file 7)])])]
  cwd := []
  linkLimit := 40
  failure := fun _ _ => none
  wellFormed := by decide
  cwd_names := Posix.isName_nil

/-- A file system with a link to the directory it is in. -/
def loopLink : FileSystem where
  tree := .directory [(js "data", .directory [(js "app", .directory [
    (js "sub", .directory [(js "again", .link (js "/data/app/sub"))])])])]
  cwd := []
  linkLimit := 40
  failure := fun _ _ => none
  wellFormed := by decide
  cwd_names := Posix.isName_nil

/-- The scan of `/data/app` with links. -/
def appScan (fs : FileSystem) : Scan := ⟨fs, [js "data", js "app"], [], true, fun _ _ => true⟩

/-- What is in the root of `innerLink`. -/
theorem innerLink_lists : innerLink.readdir (js "/data/app") =
    .ok [(js "a", .file 3), (js "b", .link (js "a"))] := rfl

/-- In `innerLink` no directory is below the root. -/
theorem entered_innerLink {chain : List JsString} {behind : Bool}
    (h : (appScan innerLink).Entered chain behind) : chain = [js "/data/app"] := by
  induction h with
  | root => decide
  | call hdir hlist hmem henter ih =>
    rename_i dir chain behind linked dirents dirent
    obtain ⟨rfl, rfl⟩ := cons_eq_cons.mp ih
    rw [show (appScan innerLink).fs.readdir (js "/data/app") = _ from innerLink_lists] at hlist
    rw [← Except.ok.inj hlist] at hmem
    have hfiles : ∀ dirent ∈ [(js "a", file 3), (js "b", .link (js "a"))], ∀ linked,
        (appScan innerLink).verdict (js "/data/app") dirent ≠ .enter linked := by decide +kernel
    exact absurd henter (hfiles dirent hmem linked)

/-- The link of `innerLink` leads below the root, and to no directory. -/
theorem linksContained_innerLink : (appScan innerLink).LinksContained := by
  intro dir chain behind dirents dirent target hdir hlist hmem hfollows
  obtain ⟨rfl, rfl⟩ := cons_eq_cons.mp (entered_innerLink hdir)
  rw [show (appScan innerLink).fs.readdir (js "/data/app") = _ from innerLink_lists] at hlist
  rw [← Except.ok.inj hlist, mem_cons, mem_singleton] at hmem
  obtain rfl | rfl := hmem
  · cases hfollows.isLink
  have htarget : (appScan innerLink).fs.realpath (Scan.fullPath (js "/data/app")
      (js "b", .link (js "a"))) = .ok [js "data", js "app", js "a"] := by decide +kernel
  have hreal := hfollows.realpath
  rw [htarget] at hreal
  rw [← Except.ok.inj hreal]
  exact ⟨by decide, fun hdirectory => absurd hdirectory (by decide +kernel)⟩

/-- The link of `innerLink` is followed, and the file behind it is below the root. -/
theorem scan_contained_innerLink : ∃ result,
    scanPersistentFilesDirectory innerLink (fun _ _ => true) (js "/data/app") [] true 1 =
        some (.ok result) ∧
      ∀ file ∈ result.files, ∃ loc, innerLink.LeadsTo file.absolutePath loc ∧
        IsBelow [js "data", js "app"] loc := by
  have hscan : scanPersistentFilesDirectory innerLink (fun _ _ => true) (js "/data/app") [] true 1 =
      some (.ok ⟨[js "data", js "app"], [⟨js "/data/app/a", js "a", 3, false⟩,
        ⟨js "/data/app/b", js "b", 3, true⟩], 2, 6, 0, 0⟩) := by decide +kernel
  have hroot : scanRoot innerLink (js "/data/app") = .ok [js "data", js "app"] := by decide +kernel
  exact ⟨_, hscan, (scan_contained innerLink (fun _ _ => true) (js "/data/app") [] true hroot
    linksContained_innerLink).1 1 _ hscan⟩

/-- What is in the root of `loopLink`. -/
theorem loopLink_lists : loopLink.readdir (js "/data/app") =
    .ok [(js "sub", .directory [(js "again", .link (js "/data/app/sub"))])] := rfl

/-- What is in the directory below it. -/
theorem loopLink_lists_sub : loopLink.readdir (js "/data/app/sub") =
    .ok [(js "again", .link (js "/data/app/sub"))] := rfl

/-- A link into a sibling puts a file from outside of the root into the result, and a link to the
directory around it is entered until the host refuses to follow it. -/
theorem sibling_and_loop_followed :
    (∃ result, scanPersistentFilesDirectory siblingLink (fun _ _ => true) (js "/data/app") [] true 1 =
        some (.ok result) ∧
      ∃ file ∈ result.files, ∃ loc, siblingLink.LeadsTo file.absolutePath loc ∧
        ¬ IsBelow [js "data", js "app"] loc) ∧
    (∃ chain behind, (appScan loopLink).Entered chain behind ∧
      ¬ chain.Pairwise fun a b => ∀ loc, loopLink.LeadsTo a loc → ¬ loopLink.LeadsTo b loc) ∧
    scanPersistentFilesDirectory loopLink (fun _ _ => true) (js "/data/app") [] true
      loopLink.tree.directories.length = none := by
  refine ⟨?_, ?_, by decide +kernel⟩
  · have hscan : scanPersistentFilesDirectory siblingLink (fun _ _ => true) (js "/data/app") [] true
        1 = some (.ok ⟨[js "data", js "app"], [⟨js "/data/app/leak", js "leak", 7, true⟩],
          1, 7, 0, 0⟩) := by decide +kernel
    have hlocate : siblingLink.locate (js "/data/app/leak") =
        .ok [js "data", js "app-evil", js "secret"] := by decide +kernel
    exact ⟨_, hscan, _, mem_singleton.mpr rfl, _, FileSystem.leadsTo_of_locate hlocate, by decide⟩
  · have hsub := Scan.Entered.call (.root : (appScan loopLink).Entered _ _)
      (show (appScan loopLink).fs.readdir (appScan loopLink).rootText = _ from loopLink_lists)
      (mem_singleton.mpr rfl) (show _ = Verdict.enter false by decide +kernel)
    have hagain := hsub.call (show (appScan loopLink).fs.readdir _ = _ from loopLink_lists_sub)
      (mem_singleton.mpr rfl) (show _ = Verdict.enter true by decide +kernel)
    refine ⟨_, _, hagain, fun hdistinct => ?_⟩
    have hlater : loopLink.locate (js "/data/app/sub/again") = .ok [js "data", js "app", js "sub"] := by
      decide +kernel
    have hearlier : loopLink.locate (js "/data/app/sub") = .ok [js "data", js "app", js "sub"] := by
      decide +kernel
    exact (pairwise_cons.mp hdistinct).1 _ mem_cons_self _
      (FileSystem.leadsTo_of_locate hlater) (FileSystem.leadsTo_of_locate hearlier)

end ZimaControl
