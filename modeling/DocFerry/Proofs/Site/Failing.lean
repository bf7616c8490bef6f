import DocFerry.Proofs.Site.Keeping
import DocFerry.Proofs.Site.Run
/-!
# What can make a run fail

Once a run has made its output folder ready, it fails for two reasons only: the file system refuses something, or the
metadata of a folder at or below the documents is not read.  A property of failures that holds for these two
(`Admits`) therefore holds for every failure of a listing, a walk, an assembly and the rest of a run (`Admits.siblings`,
`Admits.walkWithin`, `Admits.assemble`, `Admits.build`).
-/
namespace DocFerry.Site

open Files Nav

variable {α β : Type}

/-- **A property of failures**, with the world they leave, that holds for what the file system refuses and for metadata
of folders at or below a place that is not read. -/
structure Admits (root : Path) (P : Failure → World → Prop) : Prop where
  disk : ∀ problem w, P (.disk problem) w
  category : ∀ dirs w failure, Category.read w.disk (root.descend dirs) = .error failure → P failure w

/-- **A result that fails**, if it does, with such a failure. -/
def FailsAt (P : Failure → World → Prop) (w : World) (x : Except Failure α) : Prop :=
  ∀ failure, x = .error failure → P failure w

namespace FailsAt

variable {P : Failure → World → Prop} {w : World}

theorem ok (a : α) : FailsAt P w (.ok a) := fun _ h => by cases h

theorem bind {x : Except Failure α} {f : α → Except Failure β} (hx : FailsAt P w x) (hf : ∀ a, FailsAt P w (f a)) :
    FailsAt P w (x >>= f) := by
  intro failure h
  rcases bind_eq_error h with h | ⟨a, _, h⟩
  · exact hx failure h
  · exact hf a failure h

theorem map {x : Except Failure α} {f : α → β} (hx : FailsAt P w x) : FailsAt P w (x.map f) := by
  intro failure h
  cases x with
  | error failure' =>
    cases h
    exact hx failure rfl
  | ok a => cases h

end FailsAt

/-- **An entry that is listed** has its path in the folder. -/
theorem path_of_mem_siblings {d : Disk} {p : Path} {entries : List Sibling} (h : siblings d p = .ok entries) {s : Sibling}
    (hm : s ∈ entries) : ∃ name, s.path = p.child name := by
  unfold siblings at h
  split at h
  · obtain ⟨raw, hraw, rfl⟩ := map_eq_ok h
    obtain ⟨name, _, hchild⟩ := List.mem_map.1 (mem_rankAll hraw s ((Sibling.sorted_perm raw).mem_iff.1 hm)).1
    exact ⟨name, hchild.symm⟩
  · cases h

namespace Admits

variable {root : Path} {P : Failure → World → Prop} (h : Admits root P)

include h

/-- **Such a property for a folder below.** -/
theorem below (dirs : List Text) : Admits (root.descend dirs) P where
  disk := h.disk
  category more w failure hread := by
    refine h.category (dirs ++ more) w failure ?_
    rwa [Path.descend, Path.descend, List.append_assoc] at hread

theorem failsAt_disk (w : World) (x : Except Problem α) : FailsAt P w (x.mapError .disk) := by
  intro failure he
  cases x with
  | error problem =>
    cases he
    exact h.disk problem w
  | ok a => cases he

theorem failsAt_category (w : World) : FailsAt P w (Category.read w.disk root) := fun failure he =>
  h.category [] w failure (by rwa [Path.descend_nil])

theorem failsAt_rankAll (w : World) : ∀ names : List Text, FailsAt P w (rankAll w.disk (names.map root.child))
  | [] => .ok _
  | name :: names => by
    refine .bind ?_ fun s => (failsAt_rankAll w names).bind fun more => .ok _
    refine .bind (h.failsAt_disk w _) fun isDirectory => .bind ?_ fun rank => .ok _
    unfold rankOf
    split
    · exact .ok _
    · split
      · exact ((h.below [name]).failsAt_category w).map
      · split
        · exact h.failsAt_disk w _
        · exact .ok _

theorem siblings (w : World) : FailsAt P w (Site.siblings w.disk root) := by
  unfold Site.siblings
  split
  · exact (h.failsAt_rankAll w _).map
  · intro failure he
    cases he
    exact h.disk _ w

theorem onDisk (c : Change α) : Action.FailsIn P (Job.onDisk c) := by
  intro w failure u he
  unfold Job.onDisk at he
  split at he
  · cases he
  · cases he
    exact h.disk _ _

omit h in
theorem check {f : Disk → Except Failure α} (hf : ∀ w : World, FailsAt P w (f w.disk)) :
    Action.FailsIn P (Job.check f) := by
  intro w failure u he
  obtain ⟨hx, rfl⟩ := Prod.mk.inj he
  exact hf w failure hx

omit h in
theorem modify (f : World → World) : Action.FailsIn P (modify f : Job Unit) := fun _ _ _ he => by cases he

theorem writePage (convert : Converter) (output source : Path) (relative : Text) (label : Option Text) :
    Action.FailsIn P (Site.writePage convert output source relative label) := by
  refine .bind (check fun w => h.failsAt_disk w _) fun raw => ?_
  refine .bind (h.onDisk _) fun _ => .bind (h.onDisk _) fun _ => ?_
  exact .bind (modify _) fun _ => .bind (modify _) fun _ => .pure _

/-- **A walk**: the folders that it goes down to lie below the one where it starts. -/
theorem walkWithin (convert : Converter) (output : Path) : ∀ (depth : Nat) (dirs : List Text) (relative : Text),
    Action.FailsIn P (Site.walkWithin convert output depth (root.descend dirs) relative)
  | 0, _, _ => fun _ _ _ he => by
    cases he
    exact h.disk _ _
  | depth + 1, dirs, relative => by
    have hbelow := h.below dirs
    unfold Site.walkWithin
    refine .bind (check fun w => (hbelow.failsAt_category w).bind fun c => .ok _) fun label => ?_
    refine .bindOf (check fun w => hbelow.siblings w) fun entries w u hentries => ?_
    refine .foldlM (fun s hm g => ?_) _
    obtain ⟨name, hpath⟩ := path_of_mem_siblings (Job.check_eq_ok.1 hentries).1 (List.mem_filter.1 hm).1
    unfold addSibling
    split
    · rw [hpath, Path.child_descend]
      exact .bind (walkWithin convert output depth _ _) fun child => .pure _
    · split
      · refine .bind (h.writePage _ _ _ _ _) fun slug => ?_
        dsimp only
        split
        · exact .bind (modify _) fun _ => .pure _
        · exact .pure _
      · exact .pure _

theorem walk (convert : Converter) (output : Path) (dirs : List Text) (relative : Text) :
    Action.FailsIn P (Site.walk convert output (root.descend dirs) relative) :=
  .bind (fun _ _ _ he => by cases he) fun depth => h.walkWithin convert output depth dirs relative

theorem assemble (convert : Converter) (output : Path) (c : Classifier) :
    Action.FailsIn P (Site.assemble convert output c root) := by
  refine .bindOf (check fun w => h.siblings w) fun entries w u hentries => ?_
  refine .foldlM (fun s hm b => ?_) _
  obtain ⟨name, hpath⟩ := path_of_mem_siblings (Job.check_eq_ok.1 hentries).1 hm
  have hchild : s.path = root.descend [name] := hpath
  unfold addEntry
  split
  · exact .pure _
  · split
    · rw [hchild]
      exact .bind (h.walk convert output [name] _) fun g => .pure _
    · split
      · exact .bind (h.writePage _ _ _ _ _) fun slug => .pure _
      · exact .pure _

theorem copyAssets (static : Option Path) (output : Path) : Action.FailsIn P (Site.copyAssets static output) := by
  refine .bind (h.onDisk _) fun _ => ?_
  cases static with
  | none => exact .pure _
  | some assets =>
    refine .bind (.forM (fun name => ?_) _) fun _ => .bind (.forM (fun name => ?_) _) fun _ => .pure _
    · refine .bind (h.onDisk _) fun found => ?_
      split
      · exact .bind (h.onDisk _) fun _ => modify _
      · exact .pure _
    · refine .bind (h.onDisk _) fun found => ?_
      split
      · exact h.onDisk _
      · exact .pure _

/-- **What a run builds** fails for no other reason than the assembly of its documents. -/
theorem build (s : Settings) (static : Option Path) : Action.FailsIn P (s.build root static) := by
  refine .bind (h.copyAssets _ _) fun images => .bind (h.onDisk _) fun detected => ?_
  refine .bind (modify _) fun _ => .bind (h.assemble _ _ _) fun b => ?_
  refine .bind (.bind (h.onDisk _) fun _ => .pure _) fun manifestPath => ?_
  exact .bind (fun _ _ _ he => by cases he) fun w => .pure _

end Admits
end DocFerry.Site
