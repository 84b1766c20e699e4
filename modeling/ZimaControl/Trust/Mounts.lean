import Mathlib.Data.List.MinMax
import ZimaControl.Lib.JsString

/-!
# Which mount decides

`mountIsReadOnly` reads the mount table and keeps the best match for a path. Mounts on top of each
other have one mount point; the scan keeps the first of them (`mountIsReadOnly_eq`), while the kernel
lists last the one in force.
-/

namespace ZimaControl

open List

/-- The mount point and the options of a line, if it has a separator and six fields before it. -/
def mountFields (line : JsString) : Option (JsString × JsString) :=
  -- `line.slice(0, separator)` is the first initial part that a separator follows.
  (line.inits.find? fun front => js " - " <+: line.drop front.length).bind fun front =>
  match front.splitOn (unit ' ') with
  | _ :: _ :: _ :: _ :: mountPoint :: vfsOptions :: _ => some (mountPoint, vfsOptions)
  | _ => none

/-- The path is the mount point or lies below it. -/
def covers (path mountPoint : JsString) : Bool :=
  path = mountPoint ||
    (if mountPoint = js "/" then js "/" else mountPoint ++ js "/").isPrefixOf path

/-- The options include `ro` and not `rw`. -/
def isReadOnly (vfsOptions : JsString) : Bool :=
  let vfsOptions := vfsOptions.splitOn (unit ',')
  vfsOptions.contains (js "ro") && !vfsOptions.contains (js "rw")

/-- The loop of `mountIsReadOnly`: `bestLength` and `bestReadOnly` after a line. -/
def scanMount (path : JsString) (best : ℤ × Bool) (line : JsString) : ℤ × Bool :=
  match mountFields line with
  | none => best
  | some (mountPoint, vfsOptions) =>
    if mountPoint.length > best.1 && covers path mountPoint then
      (mountPoint.length, isReadOnly vfsOptions)
    else best

/-- `mountIsReadOnly`. -/
def mountIsReadOnly (mountTable path : JsString) : Bool :=
  let best := (mountTable.splitOn (unit '\n')).foldl (scanMount path) (-1, false)
  best.1 ≥ 0 && best.2

/-- The mounts that cover a path. -/
def coveringMounts (path : JsString) (lines : List JsString) : List (JsString × JsString) :=
  (lines.filterMap mountFields).filter fun mount => covers path mount.1

/-- Of the mounts with the longest mount point that covers the path, the first in the table decides. -/
theorem mountIsReadOnly_eq (mountTable path : JsString) :
    let mounts := coveringMounts path (mountTable.splitOn (unit '\n'))
    mountIsReadOnly mountTable path =
      (mounts.argmax (·.1.length)).any fun mount => isReadOnly mount.2 := by
  have hscan : ∀ lines : List JsString, lines.foldl (scanMount path) (-1, false) =
      ((coveringMounts path lines).argmax (·.1.length)).elim (-1, false) fun mount =>
        ((mount.1.length : ℤ), isReadOnly mount.2) := by
    intro lines
    induction lines using List.reverseRecOn with
    | nil => rfl
    | append_singleton lines line ih =>
      rw [foldl_concat, ih, scanMount]
      cases hfields : mountFields line with
      | none => simp [coveringMounts, hfields]
      | some mount =>
        by_cases hcovers : covers path mount.1
        · have hmounts : coveringMounts path (lines ++ [line]) =
              coveringMounts path lines ++ [mount] := by simp [coveringMounts, hfields, hcovers]
          rw [hmounts, argmax_concat]
          -- An equally long mount point does not replace the best one.
          cases (coveringMounts path lines).argmax (·.1.length) with
          | none => simp [hcovers, show (-1 : ℤ) < mount.1.length by omega]
          | some best => by_cases h : best.1.length < mount.1.length <;> simp [h, hcovers]
        · simp [coveringMounts, hfields, hcovers]
  intro mounts
  rw [mountIsReadOnly, hscan]
  cases mounts.argmax (·.1.length) <;> simp

end ZimaControl
