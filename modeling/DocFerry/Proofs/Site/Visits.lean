import DocFerry.Proofs.Nav.Placing
import DocFerry.Proofs.Site.Preservation
/-!
# The entries of the root, one after another

The assembly of a site visits the entries of the documents' root in order, and each of them comes to the group of a
folder, the slug of a page or nothing (`Visits`).  The buckets have received what each of them yields
(`assemble_eq_ok`), and each is visited in a world in which pages have only been added to the disk (`Visits.worlds`,
`Emits.grows`).
-/
namespace DocFerry.Site

open Files Nav

/-- **What an entry of the documents' root yields.** -/
inductive Yield where
  /-- It is left out, or is neither a folder nor a page. -/
  | nothing
  /-- The group of a folder, which may have no items. -/
  | folder (g : Nav.Group)
  /-- The slug of a page. -/
  | page (slug : Text)

variable {convert : Converter} {output : Path}

/-- **An entry of the root visited**: what it yields, and the worlds before and after. -/
inductive Visit (convert : Converter) (output : Path) : Sibling → Yield → World → World → Prop
  | skipped {s : Sibling} {w : World} : isSkipped s = true → Visit convert output s .nothing w w
  | folder {s : Sibling} {g : Nav.Group} {w w' : World} : isSkipped s = false → s.isDirectory = true →
      walk convert output s.path s.name w = (.ok g, w') → Visit convert output s (.folder g) w w'
  | page {s : Sibling} {slug : Text} {w w' : World} : isSkipped s = false → s.isPage = true →
      writePage convert output s.path [] (some gettingStartedLabel) w = (.ok slug, w') →
      Visit convert output s (.page slug) w w'
  | other {s : Sibling} {w : World} : isSkipped s = false → s.isDirectory = false → s.isPage = false →
      Visit convert output s .nothing w w

/-- **Entries visited one after another**, each with what it yields. -/
inductive Visits (convert : Converter) (output : Path) : List (Sibling × Yield) → World → World → Prop
  | nil {w : World} : Visits convert output [] w w
  | cons {s : Sibling} {y : Yield} {rest : List (Sibling × Yield)} {w u w' : World} :
      Visit convert output s y w u → Visits convert output rest u w' → Visits convert output ((s, y) :: rest) w w'

/-- **What an entry yields, put into the buckets.** -/
def receive (c : Classifier) (b : Buckets) (name : Text) : Yield → Buckets
  | .nothing => b
  | .folder g => placeGroup c b name g
  | .page slug => b.addLoose slug

theorem addEntry_eq_ok {c : Classifier} {b b' : Buckets} {s : Sibling} {w w' : World}
    (h : addEntry convert output c b s w = (.ok b', w')) :
    ∃ y, Visit convert output s y w w' ∧ b' = receive c b s.name y := by
  unfold addEntry at h
  split at h
  · rename_i hskip
    obtain ⟨rfl, rfl⟩ := Action.pure_eq_ok_iff.1 h
    exact ⟨.nothing, .skipped hskip, rfl⟩
  · rename_i hskip
    have hskip : isSkipped s = false := by simpa using hskip
    split at h
    · rename_i hdir
      obtain ⟨g, u, hg, h⟩ := Action.bind_eq_ok_iff.1 h
      obtain ⟨rfl, rfl⟩ := Action.pure_eq_ok_iff.1 h
      exact ⟨.folder g, .folder hskip hdir hg, rfl⟩
    · rename_i hdir
      split at h
      · rename_i hpage
        obtain ⟨slug, u, hslug, h⟩ := Action.bind_eq_ok_iff.1 h
        obtain ⟨rfl, rfl⟩ := Action.pure_eq_ok_iff.1 h
        exact ⟨.page slug, .page hskip hpage hslug, rfl⟩
      · rename_i hpage
        obtain ⟨rfl, rfl⟩ := Action.pure_eq_ok_iff.1 h
        exact ⟨.nothing, .other hskip (by simpa using hdir) (by simpa using hpage), rfl⟩

theorem visits_of_foldlM {c : Classifier} : ∀ {entries : List Sibling} {b b' : Buckets} {w w' : World},
    entries.foldlM (addEntry convert output c) b w = (.ok b', w') →
    ∃ visits : List (Sibling × Yield), visits.map Prod.fst = entries ∧ Visits convert output visits w w' ∧
      b' = visits.foldl (fun b v => receive c b v.1.name v.2) b
  | [], _, _, _, _, h => by
    obtain ⟨rfl, rfl⟩ := Action.pure_eq_ok_iff.1 h
    exact ⟨[], rfl, .nil, rfl⟩
  | s :: entries, _, _, _, _, h => by
    obtain ⟨_, u, hs, hrest⟩ := Action.foldlM_cons_eq_ok h
    obtain ⟨y, hy, rfl⟩ := addEntry_eq_ok hs
    obtain ⟨visits, rfl, hvisits, rfl⟩ := visits_of_foldlM hrest
    exact ⟨(s, y) :: visits, rfl, .cons hy hvisits, rfl⟩

/-- **An assembly that returns has visited every entry of the root**, and its buckets have received what they yield. -/
theorem assemble_eq_ok {c : Classifier} {docs : Path} {b : Buckets} {w w' : World}
    (h : assemble convert output c docs w = (.ok b, w')) :
    ∃ visits : List (Sibling × Yield), siblings w.disk docs = .ok (visits.map Prod.fst) ∧
      Visits convert output visits w w' ∧
      b = visits.foldl (fun b v => receive c b v.1.name v.2) (.forPlatforms c.platforms) := by
  unfold assemble at h
  obtain ⟨entries, _, hentries, h₁⟩ := Action.bind_eq_ok_iff.1 h
  obtain ⟨hentries, rfl⟩ := Job.check_eq_ok.1 hentries
  obtain ⟨visits, rfl, hvisits, hb⟩ := visits_of_foldlM h₁
  exact ⟨visits, hentries, hvisits, hb⟩

/-! ## Worlds on the way -/

theorem Visit.keeps {R : World → World → Prop} (hk : Kept convert output R) {s : Sibling} (hname : IsEntryName s.name)
    (hpath : s.path.name = s.name) {y : Yield} {w w' : World} (h : Visit convert output s y w w') : R w w' := by
  cases h with
  | skipped => exact hk.refl w
  | other => exact hk.refl w
  | folder _ _ hw =>
    have hwalk := hk.walk s.path hname w
    rwa [hw] at hwalk
  | page _ _ hw =>
    have hpage := hk.page s.path [] (some gettingStartedLabel) (by simp) (hpath.symm ▸ hname.1.2) w
    rw [show Text.join ['/'] [] = [] from rfl, hw] at hpage
    exact hpage

/-- **Each entry is visited in a world** that pages written before may have changed. -/
theorem Visits.worlds {R : World → World → Prop} (hk : Kept convert output R) :
    ∀ {visits : List (Sibling × Yield)} {w w' : World}, Visits convert output visits w w' →
    (∀ v ∈ visits, IsEntryName v.1.name ∧ v.1.path.name = v.1.name) →
    ∀ v ∈ visits, ∃ u u', R w u ∧ Visit convert output v.1 v.2 u u'
  | _, w, _, .cons (u := u) hs hrest, hnames, v, hv => by
    rcases List.mem_cons.1 hv with rfl | hv
    · exact ⟨w, u, hk.refl w, hs⟩
    · obtain ⟨u₁, u₂, hkept, hvisit⟩ := hrest.worlds hk (fun v hv => hnames v (List.mem_cons_of_mem _ hv)) v hv
      obtain ⟨hname, hpath⟩ := hnames _ List.mem_cons_self
      exact ⟨u₁, u₂, hk.trans _ _ _ (hs.keeps hk hname hpath) hkept, hvisit⟩

theorem Emits.grows {w w' : World} (h : Emits output w w') (hs : w.disk.Sound) :
    ∃ area, w.disk.Grows area w'.disk := by
  obtain ⟨es, _, _, hwrote⟩ := h hs
  exact ⟨_, hwrote hs⟩

/-- **What pages write** is at or below the output folder. -/
theorem Emits.below {w w' : World} (h : Emits output w w') (hs : w.disk.Sound)
    (hfree : w.disk.LinkFree (w.disk.settle output)) : w.disk.Grows (.below (w.disk.settle output)) w'.disk := by
  obtain ⟨es, _, hbelow, hwrote⟩ := h hs
  exact (hwrote.mono fun q ⟨e, he, hq⟩ => hq ▸ hbelow e he).below hs (.refl _) hfree

end DocFerry.Site
