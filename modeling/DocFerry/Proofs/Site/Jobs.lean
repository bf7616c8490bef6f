import DocFerry.Proofs.Action
import DocFerry.Site.World
/-!
# Jobs taken apart

A job that looks leaves the world as it is (`check_eq_ok`, `ends_check_bind`), and one that changes the disk changes nothing else
(`onDisk_eq_ok`), so it keeps of the disk what the change keeps (`onDisk_keeps`).
-/
namespace DocFerry.Site.Job

open Files

variable {α : Type} {w w' : World} {a : α}

theorem check_eq_ok {f : Disk → Except Failure α} : check f w = (.ok a, w') ↔ f w.disk = .ok a ∧ w' = w := by
  simp [check, eq_comm]

theorem onDisk_eq_ok {c : Change α} :
    onDisk c w = (.ok a, w') ↔ ∃ d, c w.disk = (.ok a, d) ∧ w' = { w with disk := d } := by
  unfold onDisk
  constructor
  · intro h
    split at h
    · rename_i b d hc
      cases h
      exact ⟨d, hc, rfl⟩
    · cases h
  · rintro ⟨d, hc, rfl⟩
    rw [hc]

/-- **What a job that looks first comes to**: what the rest of it comes to, in the same world. -/
theorem ends_check_bind {β : Type} {f : Disk → Except Failure α} {next : α → Job β} {Q : β → World → Prop}
    {E : World → Prop} (hnext : ∀ a, f w.disk = .ok a → (next a).Ends w Q E) (herror : E w) :
    (check f >>= next).Ends w Q E := by
  refine .bind (P := fun a v => f w.disk = .ok a ∧ v = w) (.intro (fun a v h => check_eq_ok.1 h) fun e v h => ?_) ?_
  · exact (Prod.mk.inj h).2 ▸ herror
  · rintro a _ ⟨ha, rfl⟩
    exact hnext a ha

/-- **What a job keeps of the disk.** -/
abbrev KeepsDisk (R : Disk → Disk → Prop) (job : Job α) : Prop := Action.Keeps (fun w w' => R w.disk w'.disk) job

theorem onDisk_keeps {R : Disk → Disk → Prop} {c : Change α} (h : Action.Keeps R c) : KeepsDisk R (onDisk c) := by
  intro w
  have hk := h w.disk
  unfold onDisk
  rcases hc : c w.disk with ⟨_ | _, d⟩ <;> rw [hc] at hk <;> exact hk

theorem bind_keeps {R : Disk → Disk → Prop} (trans : ∀ d e f, R d e → R e f → R d f) {β : Type} {job : Job α}
    {next : α → Job β} (hj : KeepsDisk R job) (hn : ∀ a, KeepsDisk R (next a)) : KeepsDisk R (job >>= next) :=
  Action.Keeps.bind (R := fun w w' : World => R w.disk w'.disk) (fun _ _ _ => trans _ _ _) hj hn

theorem forM_keeps {R : Disk → Disk → Prop} (refl : ∀ d, R d d) (trans : ∀ d e f, R d e → R e f → R d f)
    {f : α → Job Unit}
    (l : List α) (h : ∀ a ∈ l, KeepsDisk R (f a)) : KeepsDisk R (l.forM f) :=
  Action.Keeps.forM (R := fun w w' : World => R w.disk w'.disk) (fun _ => refl _) (fun _ _ _ => trans _ _ _) l h

theorem tell_keeps {R : Disk → Disk → Prop} (refl : ∀ d, R d d) (level : Level) (teller : String) (message : Text) :
    KeepsDisk R (tell level teller message) := fun w => refl w.disk

end DocFerry.Site.Job
