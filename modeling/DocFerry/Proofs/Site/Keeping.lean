import DocFerry.Proofs.Site.Pages
/-!
# What the writing of pages keeps

A relation between the worlds before and after that each page keeps, and each step that only looks or tells, is kept
by the walk of a folder and by the assembly of a site (`Kept.walk`, `Kept.assemble`).  It may count on a disk in
order, where every entry that is listed has a name that an entry can have (`siblings_entryNames`).
-/
namespace DocFerry.Site

open Files Nav

theorem mem_rankAll {d : Disk} : ∀ {paths : List Path} {entries : List Sibling}, rankAll d paths = .ok entries →
    ∀ s ∈ entries, s.path ∈ paths ∧ s.name = s.path.name
  | [], _, h, s, hs => by
    cases h
    exact absurd hs (by simp)
  | p :: paths, _, h, s, hs => by
    obtain ⟨first, hfirst, h₁⟩ := bind_eq_ok h
    obtain ⟨more, hmore, h₂⟩ := bind_eq_ok h₁
    cases h₂
    rcases List.mem_cons.1 hs with rfl | hs
    · obtain ⟨_, _, h₃⟩ := bind_eq_ok hfirst
      obtain ⟨_, _, h₄⟩ := bind_eq_ok h₃
      cases h₄
      exact ⟨List.mem_cons_self, rfl⟩
    · obtain ⟨hpath, hname⟩ := mem_rankAll hmore s hs
      exact ⟨List.mem_cons_of_mem _ hpath, hname⟩

/-- **Every entry that is listed on a disk in order** has a name that an entry can have. -/
theorem siblings_entryNames {d : Disk} {p : Path} {entries : List Sibling} (hs : d.Sound)
    (h : siblings d p = .ok entries) : ∀ s ∈ entries, IsEntryName s.name ∧ s.path.name = s.name := by
  unfold siblings at h
  split at h
  · rename_i names hlist
    obtain ⟨l, _, rfl⟩ := Disk.list_eq_ok hlist
    obtain ⟨raw, hraw, rfl⟩ := map_eq_ok h
    intro s hm
    obtain ⟨hpath, hname⟩ := mem_rankAll hraw s ((Sibling.sorted_perm raw).mem_iff.1 hm)
    obtain ⟨name, hn, hchild⟩ := List.mem_map.1 hpath
    refine ⟨?_, hname.symm⟩
    rw [hname, ← hchild, Path.name_child]
    exact hs.entryName hn
  · cases h

/-- **A relation of worlds that each page keeps**, of disks in order. -/
structure Kept (convert : Converter) (output : Path) (R : World → World → Prop) : Prop where
  same : ∀ w w' : World, w'.disk = w.disk → w'.written = w.written → R w w'
  trans : ∀ w₁ w₂ w₃, R w₁ w₂ → R w₂ w₃ → R w₁ w₃
  sound : ∀ w w', (w.disk.Sound → R w w') → R w w'
  page : ∀ (source : Path) (dirs : List Text) (label : Option Text), (∀ name ∈ dirs, IsEntryName name) →
    '/' ∉ source.name → Action.Keeps R (writePage convert output source (Text.join ['/'] dirs) label)

namespace Kept

variable {convert : Converter} {output : Path} {R : World → World → Prop} (h : Kept convert output R)

include h

theorem refl (w : World) : R w w := h.same w w rfl rfl

theorem check {α : Type} (f : Disk → Except Failure α) : Action.Keeps R (Job.check f) := h.refl

theorem addSibling {dirs : List Text} (hd : ∀ name ∈ dirs, IsEntryName name) {s : Sibling} (hname : IsEntryName s.name)
    (hpath : s.path.name = s.name) {below : Path → Text → Job Nav.Group}
    (hbelow : Action.Keeps R (below s.path (Text.join ['/'] (dirs ++ [s.name])))) (label : Text) (g : Nav.Group) :
    Action.Keeps R (Site.addSibling convert output below (Text.join ['/'] dirs) label g s) := by
  unfold Site.addSibling
  split
  · rw [joinPaths_join dirs (fun hc => hname.1.2 (List.mem_of_head? hc)) fun n hn => (hd n hn).1]
    exact Action.Keeps.bind h.trans hbelow fun child => Action.Keeps.pure h.refl _
  · split
    · refine Action.Keeps.bind h.trans (h.page _ _ _ hd (hpath.symm ▸ hname.1.2)) fun slug => ?_
      dsimp only
      split
      · exact Action.Keeps.bind h.trans (fun w => h.same _ _ rfl rfl) fun _ => Action.Keeps.pure h.refl _
      · exact Action.Keeps.pure h.refl _
    · exact Action.Keeps.pure h.refl _

theorem walkWithin : ∀ (depth : Nat) (directory : Path) {dirs : List Text}, (∀ name ∈ dirs, IsEntryName name) →
    Action.Keeps R (Site.walkWithin convert output depth directory (Text.join ['/'] dirs))
  | 0, _, _, _ => Action.Keeps.throw h.refl _
  | depth + 1, directory, dirs, hd => by
    unfold Site.walkWithin
    refine Action.Keeps.bind h.trans (h.check _) fun label w => h.sound _ _ fun hs => ?_
    refine Action.Keeps.bindAt h.trans (h.check _ w) fun entries u hentries => ?_
    obtain ⟨hentries, rfl⟩ := Job.check_eq_ok.1 hentries
    refine Action.Keeps.foldlM_mem h.refl h.trans _ (fun s hm g => ?_) _ u
    obtain ⟨hname, hpath⟩ := siblings_entryNames hs hentries s (List.mem_filter.1 hm).1
    have hbelow : ∀ name ∈ dirs ++ [s.name], IsEntryName name :=
      List.forall_mem_append.2 ⟨hd, List.forall_mem_singleton.2 hname⟩
    exact h.addSibling hd hname hpath (walkWithin depth s.path hbelow) label g

/-- **What each page keeps, the walk of a folder keeps.** -/
theorem walk (directory : Path) {name : Text} (hn : IsEntryName name) :
    Action.Keeps R (Site.walk convert output directory name) := by
  have hdirs : ∀ n ∈ [name], IsEntryName n := by simpa using hn
  exact Action.Keeps.bind h.trans (fun w => h.same _ _ rfl rfl) fun depth => h.walkWithin depth directory hdirs

theorem addEntry (c : Classifier) {s : Sibling} (hname : IsEntryName s.name) (hpath : s.path.name = s.name)
    (b : Buckets) : Action.Keeps R (Site.addEntry convert output c b s) := by
  unfold Site.addEntry
  split
  · exact Action.Keeps.pure h.refl _
  · split
    · exact Action.Keeps.bind h.trans (h.walk s.path hname) fun g => Action.Keeps.pure h.refl _
    · split
      · refine Action.Keeps.bind h.trans ?_ fun slug => Action.Keeps.pure h.refl _
        exact h.page s.path [] _ (by simp) (hpath.symm ▸ hname.1.2)
      · exact Action.Keeps.pure h.refl _

/-- **What each page keeps, the assembly of a site keeps.** -/
theorem assemble (c : Classifier) (docs : Path) : Action.Keeps R (Site.assemble convert output c docs) := by
  refine fun w => h.sound _ _ fun hs => ?_
  refine Action.Keeps.bindAt h.trans (h.check _ w) fun entries u hentries => ?_
  obtain ⟨hentries, rfl⟩ := Job.check_eq_ok.1 hentries
  refine Action.Keeps.foldlM_mem h.refl h.trans _ (fun s hm b => ?_) _ u
  obtain ⟨hname, hpath⟩ := siblings_entryNames hs hentries s hm
  exact h.addEntry c hname hpath b

end Kept
end DocFerry.Site
