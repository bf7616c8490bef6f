import DocFerry.Proofs.Site.Labels
import DocFerry.Proofs.Site.Outline
import DocFerry.Proofs.Site.Origins
/-!
# Documents converted one after another

A part of a run converts documents in the order of the lists of their folders, and warns of those in folders that are
written where an earlier one has been (`Converts`).  Two parts put together convert the documents of both, and warn as
each of them does if they write to different places (`Converts.append`); one more document is warned of if it lies in a
folder and its place has been written to (`Converts.page`).
-/
namespace DocFerry.Site

open Files Nav

/-! ## Warnings -/

/-- **The warnings of a log**, in order. -/
def warnings (log : List Record) : List Record := log.filter fun r => r.level = .warning

/-- **What is told of a document** that is written where an earlier one has been. -/
def overwriteRecord (docs : Path) (a : Address) : Record :=
  ⟨.warning, "mint_migrate.walker".toList, overwriteWarning (docs.descend a) a.listed⟩

/-- **The documents that are written where an earlier one has been**, in order; `seen` are the places written to
before. -/
def overwriting : (seen : List (List Text)) → List Address → List Address
  | _, [] => []
  | seen, a :: rest => (if a.target ∈ seen then [a] else []) ++ overwriting (a.target :: seen) rest

/-- **The documents that are warned of**: those in the root of the documents are not. -/
def warned (as : List Address) : List Address := (overwriting [] as).filter fun a => a.folders ≠ []

theorem warnings_append (log more : List Record) : warnings (log ++ more) = warnings log ++ warnings more :=
  List.filter_append ..

theorem overwriting_congr : ∀ {as : List Address} {seen seen' : List (List Text)},
    (∀ a ∈ as, a.target ∈ seen ↔ a.target ∈ seen') → overwriting seen as = overwriting seen' as
  | [], _, _, _ => rfl
  | a :: as, seen, seen', h => by
    obtain ⟨ha, hrest⟩ := List.forall_mem_cons.1 h
    have ih : overwriting (a.target :: seen) as = overwriting (a.target :: seen') as :=
      overwriting_congr fun b hb => by rw [List.mem_cons, List.mem_cons, hrest b hb]
    rw [overwriting, overwriting, ih]
    simp only [ha]

theorem overwriting_append : ∀ (as bs : List Address) (seen : List (List Text)),
    overwriting seen (as ++ bs) = overwriting seen as ++ overwriting (as.map Address.target ++ seen) bs
  | [], _, _ => rfl
  | a :: as, bs, seen => by
    have hseen : overwriting (as.map Address.target ++ a.target :: seen) bs =
        overwriting ((a :: as).map Address.target ++ seen) bs :=
      overwriting_congr fun b _ => by simp [or_left_comm]
    rw [List.cons_append, overwriting, overwriting, overwriting_append as bs, hseen, List.append_assoc]

/-- **Documents written to other places** are warned of for themselves. -/
theorem warned_append {as bs : List Address} (h : ∀ a ∈ as, ∀ b ∈ bs, a.target ≠ b.target) :
    warned (as ++ bs) = warned as ++ warned bs := by
  have hnew : overwriting (as.map Address.target ++ []) bs = overwriting [] bs := by
    refine overwriting_congr fun b hb => ?_
    simpa using fun a ha => h a ha b hb
  rw [warned, overwriting_append, hnew, List.filter_append, warned, warned]

/-- **One more document** is warned of if it lies in a folder and its place has been written to. -/
theorem warned_concat (as : List Address) (a : Address) : warned (as ++ [a]) =
    warned as ++ if (∃ b ∈ as, b.target = a.target) ∧ a.folders ≠ [] then [a] else [] := by
  rw [warned, overwriting_append, List.filter_append, ← warned]
  congr 1
  by_cases hseen : ∃ b ∈ as, b.target = a.target <;> by_cases hfolders : a.folders = [] <;>
    simp [overwriting, hseen, hfolders]

/-! ## Parts of a run -/

/-- **The order of a traversal**: where their addresses part, the list of the folder, in a world on the way, has the
entry that leads to the one before the entry that leads to the other. -/
def ListedBefore (docs output : Path) (w w' : World) (a b : Address) : Prop :=
  ∃ u dirs entries s t, Emits output w u ∧ Emits output u w' ∧ siblings u.disk (docs.descend dirs) = .ok entries ∧
    [s, t].Sublist entries ∧ dirs ++ [s.name] <+: a ∧ dirs ++ [t.name] <+: b

/-- **A part of a run that converts documents**, in the order of their folders' lists: it writes each of them to its
place, and warns of those in folders that are written where an earlier one has been. -/
structure Converts (docs output : Path) (w : World) (as : List Address) (w' : World) : Prop where
  emits : Emits output w w'
  targets : w'.written.map Emission.target = w.written.map Emission.target ++ as.map (targetAt output)
  pages : ∀ a ∈ as, PageAt w'.disk docs a
  order : as.Pairwise (ListedBefore docs output w w')
  warns : warnings w'.log = warnings w.log ++ (warned as).map (overwriteRecord docs)

variable {docs output : Path} {w u v : World} {as bs : List Address}

theorem ListedBefore.mono {w' : World} {a b : Address} (h : ListedBefore docs output u v a b) (hw : Emits output w u)
    (hw' : Emits output v w') : ListedBefore docs output w w' a b := by
  obtain ⟨x, dirs, entries, s, t, hu, hv, hlisted⟩ := h
  exact ⟨x, dirs, entries, s, t, hw.trans output _ _ _ hu, hv.trans output _ _ _ hw', hlisted⟩

/-- **No document comes before itself**: a list has each name once. -/
theorem ListedBefore.irrefl (hs : w.disk.Sound) (a : Address) : ¬ ListedBefore docs output w u a a := by
  rintro ⟨v, dirs, entries, s, t, hv, _, hentries, hlisted, ha, hb⟩
  obtain ⟨_, hg⟩ := hv.grows hs
  have hnodup := (nodup_of_siblings (hg.sound hs) hentries).sublist (hlisted.map Sibling.name)
  simp [eq_of_under ha hb] at hnodup

theorem PageAt.of_emits {a : Address} (hs : w.disk.Sound) (hw : Emits output w u) (h : PageAt w.disk docs a) :
    PageAt u.disk docs a := by
  obtain ⟨_, hg⟩ := hw.grows hs
  exact ⟨h.names, h.page, Disk.stable_hasFile hg h.file⟩

namespace Converts

theorem refl (docs output : Path) (w : World) : Converts docs output w [] w :=
  ⟨.refl _ _, by simp, by simp, .nil, by simp [warned, overwriting]⟩

/-- **Two parts put together.** -/
theorem append (hs : w.disk.Sound) (h : Converts docs output w as u) (k : Converts docs output u bs v)
    (horder : ∀ a ∈ as, ∀ b ∈ bs, ListedBefore docs output w v a b)
    (happart : ∀ a ∈ as, ∀ b ∈ bs, a.target ≠ b.target) :
    Converts docs output w (as ++ bs) v where
  emits := h.emits.trans output _ _ _ k.emits
  targets := by rw [k.targets, h.targets, List.map_append, List.append_assoc]
  pages a ha := by
    obtain ⟨_, hg⟩ := h.emits.grows hs
    rcases List.mem_append.1 ha with ha | ha
    · exact (h.pages a ha).of_emits (hg.sound hs) k.emits
    · exact k.pages a ha
  order := List.pairwise_append.2
    ⟨h.order.imp (·.mono (.refl _ _) k.emits), k.order.imp (·.mono h.emits (.refl _ _)), horder⟩
  warns := by rw [k.warns, h.warns, warned_append happart, List.map_append, List.append_assoc]

/-- **One more document.** -/
theorem page {a : Address} (hs : w.disk.Sound) (h : Converts docs output w as u) (hemits : Emits output u v)
    (htargets : v.written.map Emission.target = u.written.map Emission.target ++ [targetAt output a])
    (hpage : PageAt v.disk docs a) (horder : ∀ b ∈ as, ListedBefore docs output w v b a)
    (hwarns : warnings v.log = warnings u.log ++
      if (∃ b ∈ as, b.target = a.target) ∧ a.folders ≠ [] then [overwriteRecord docs a] else []) :
    Converts docs output w (as ++ [a]) v where
  emits := h.emits.trans output _ _ _ hemits
  targets := by rw [htargets, h.targets, List.map_append, List.append_assoc, List.map_singleton]
  pages b hb := by
    obtain ⟨_, hg⟩ := h.emits.grows hs
    rcases List.mem_append.1 hb with hb | hb
    · exact (h.pages b hb).of_emits (hg.sound hs) hemits
    · rwa [List.mem_singleton.1 hb]
  order := List.pairwise_append.2
    ⟨h.order.imp (·.mono (.refl _ _) hemits), List.pairwise_singleton _ _, by simpa using horder⟩
  warns := by
    rw [hwarns, h.warns, warned_concat, List.map_append, List.append_assoc]
    split <;> rfl

/-- **A step that writes no page and tells nothing.** -/
theorem quiet (hs : w.disk.Sound) (h : Converts docs output w as u) (hemits : Emits output u v)
    (hwritten : v.written = u.written) (hlog : v.log = u.log) : Converts docs output w as v where
  emits := h.emits.trans output _ _ _ hemits
  targets := by rw [hwritten, h.targets]
  pages a ha := by
    obtain ⟨_, hg⟩ := h.emits.grows hs
    exact (h.pages a ha).of_emits (hg.sound hs) hemits
  order := h.order.imp (·.mono (.refl _ _) hemits)
  warns := by rw [hlog, h.warns]

end Converts

/-! ## Pages -/

variable {convert : Converter}

/-- **A page that is not written** leaves the log and the notes of pages as they were. -/
theorem writePage_eq_error {source : Path} {relative : Text} {label : Option Text} {failure : Failure} {w w' : World}
    (h : writePage convert output source relative label w = (.error failure, w')) :
    w'.written = w.written ∧ w'.log = w.log := by
  have hdisk : ∀ {α : Type} {c : Change α} {u v : World} {r : Except Failure α}, Job.onDisk c u = (r, v) →
      v.written = u.written ∧ v.log = u.log := by
    intro α c u v r hc
    obtain ⟨hlog, hwritten⟩ := Job.onDisk_rest c u
    rw [hc] at hlog hwritten
    exact ⟨hwritten, hlog⟩
  unfold writePage at h
  rcases Action.bind_eq_error_iff.1 h with h | ⟨raw, u, hraw, h₁⟩
  · exact (Prod.mk.inj h).2 ▸ ⟨rfl, rfl⟩
  obtain ⟨_, rfl⟩ := Job.check_eq_ok.1 hraw
  rcases Action.bind_eq_error_iff.1 h₁ with h | ⟨_, v, hmade, h⟩
  · exact hdisk h
  obtain ⟨hwritten, hlog⟩ := hdisk hmade
  rcases Action.bind_eq_error_iff.1 h with h | ⟨_, x, _, h⟩
  · obtain ⟨hwritten', hlog'⟩ := hdisk h
    exact ⟨hwritten'.trans hwritten, hlog'.trans hlog⟩
  -- From here on nothing can fail.
  · rcases Action.bind_eq_error_iff.1 h with h | ⟨_, _, _, h⟩
    · cases h
    · rcases Action.bind_eq_error_iff.1 h with h | ⟨_, _, _, h⟩ <;> cases h

/-- **A page that is written** is noted, and the log warns of nothing yet. -/
theorem writePage_notes {source : Path} {relative slug : Text} {label : Option Text} {w w' : World}
    (h : writePage convert output source relative label w = (.ok slug, w')) :
    w'.written.map Emission.target =
        w.written.map Emission.target ++ [targetPath output relative (Path.baseName source.name)] ∧
      warnings w'.log = warnings w.log := by
  obtain ⟨_, _, _, _, _, _, _, _, hw'⟩ := writePage_steps h
  refine ⟨by rw [hw', List.map_append, List.map_singleton], ?_⟩
  unfold writePage at h
  obtain ⟨_, _, hraw, h₁⟩ := Action.bind_eq_ok_iff.1 h
  obtain ⟨_, rfl⟩ := Job.check_eq_ok.1 hraw
  obtain ⟨_, _, hmade, h₂⟩ := Action.bind_eq_ok_iff.1 h₁
  obtain ⟨_, _, rfl⟩ := Job.onDisk_eq_ok.1 hmade
  obtain ⟨_, _, hwritten, h₃⟩ := Action.bind_eq_ok_iff.1 h₂
  obtain ⟨_, _, rfl⟩ := Job.onDisk_eq_ok.1 hwritten
  obtain ⟨_, _, hemit, h₄⟩ := Action.bind_eq_ok_iff.1 h₃
  obtain ⟨_, _, htell, h₅⟩ := Action.bind_eq_ok_iff.1 h₄
  obtain ⟨_, rfl⟩ := Action.pure_eq_ok_iff.1 h₅
  cases hemit
  cases htell
  simp [warnings]

end DocFerry.Site
