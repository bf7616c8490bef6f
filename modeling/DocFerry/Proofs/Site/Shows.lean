import DocFerry.Proofs.Site.Pages
/-!
# Slugs of documents

The slug of a document is its address without the last extension.  Two documents have one slug exactly if they are in
one folder under one name without extension (`Address.slug_eq`), so a group that leaves out the slugs it lists already,
and takes over the slugs of a subfolder as they are, lists every slug once (`Shows.page`, `Shows.folder`).
-/
namespace DocFerry.Site

open Files Nav

/-- **The slug of a document**: its address without the last extension. -/
def Address.slug (a : Address) : Text := Text.join ['/'] (a.folders ++ [Path.baseName a.file])

/-- **No name holds a slash.** -/
def Address.Slashless (a : Address) : Prop := ∀ name ∈ a, '/' ∉ name

theorem Address.Slashless.file {a : Address} (h : a.Slashless) : '/' ∉ a.file := by
  unfold Address.file
  cases hl : List.getLast? a with
  | none => simp
  | some name => exact h name (List.mem_of_getLast? hl)

theorem Address.Slashless.slugNames {a : Address} (h : a.Slashless) :
    ∀ piece ∈ a.folders ++ [Path.baseName a.file], '/' ∉ piece := by
  intro piece hp
  rcases List.mem_append.1 hp with hp | hp
  · exact h piece (List.dropLast_subset _ hp)
  · rw [List.mem_singleton.1 hp]
    exact fun hc => h.file (mem_of_mem_baseName hc)

/-- **Documents with one slug** are in one folder under one name without extension. -/
theorem Address.slug_eq {a b : Address} (ha : a.Slashless) (hb : b.Slashless) (h : a.slug = b.slug) :
    a.folders = b.folders ∧ Path.baseName a.file = Path.baseName b.file := by
  have hsplit := congrArg (Text.splitWhere (· == '/')) h
  rw [Address.slug, Address.slug, Text.splitWhere_join '/' _ (by simp) ha.slugNames,
    Text.splitWhere_join '/' _ (by simp) hb.slugNames] at hsplit
  obtain ⟨hf, hn⟩ := List.append_inj' hsplit rfl
  exact ⟨hf, List.singleton_inj.1 hn⟩

/-- **Slugs listed for documents of a folder**: each of them once, and those of its own pages among the direct ones. -/
structure Shows (dirs : List Text) (slugs direct : List Text) (as : List Address) : Prop where
  nodup : slugs.Nodup
  mem : ∀ slug, slug ∈ slugs ↔ ∃ a ∈ as, a.slug = slug
  own : ∀ a ∈ as, a.folders = dirs → a.slug ∈ direct
  listed : ∀ slug ∈ direct, slug ∈ slugs
  slashless : ∀ a ∈ as, a.Slashless

namespace Shows

variable {dirs slugs direct : List Text} {as : List Address}

theorem empty (dirs : List Text) : Shows dirs [] [] [] := by
  constructor <;> simp

/-- **A page of the folder**, listed unless its slug is. -/
theorem page (h : Shows dirs slugs direct as) {a : Address} (hf : a.folders = dirs) (ha : a.Slashless) :
    Shows dirs (if a.slug ∈ direct then slugs else slugs ++ [a.slug])
      (if a.slug ∈ direct then direct else direct ++ [a.slug]) (as ++ [a]) := by
  have hslashless : ∀ b ∈ as ++ [a], b.Slashless := by
    intro b hb
    rcases List.mem_append.1 hb with hb | hb
    · exact h.slashless b hb
    · exact List.mem_singleton.1 hb ▸ ha
  split
  · rename_i hd
    refine ⟨h.nodup, fun slug => ?_, fun b hb hbf => ?_, h.listed, hslashless⟩
    · rw [h.mem]
      constructor
      · rintro ⟨b, hb, rfl⟩
        exact ⟨b, List.mem_append_left _ hb, rfl⟩
      · rintro ⟨b, hb, rfl⟩
        rcases List.mem_append.1 hb with hb | hb
        · exact ⟨b, hb, rfl⟩
        · rw [List.mem_singleton.1 hb]
          exact (h.mem _).1 (h.listed _ hd)
    · rcases List.mem_append.1 hb with hb | hb
      · exact h.own b hb hbf
      · exact List.mem_singleton.1 hb ▸ hd
  · rename_i hd
    refine ⟨?_, fun slug => ?_, fun b hb hbf => ?_, fun slug hs => ?_, hslashless⟩
    · refine List.nodup_append.2 ⟨h.nodup, by simp, fun slug hs other ho he => ?_⟩
      -- A slug listed for another document is that of a page of this folder, hence among the direct ones.
      rw [List.mem_singleton.1 ho] at he
      obtain ⟨b, hb, hslug⟩ := (h.mem slug).1 hs
      have hfolders := (Address.slug_eq (h.slashless b hb) ha (hslug.trans he)).1
      exact hd (he ▸ hslug ▸ h.own b hb (hfolders.trans hf))
    · rw [List.mem_append, h.mem]
      simp only [List.mem_append, List.mem_singleton, or_and_right, exists_or, exists_eq_left]
      rw [eq_comm (a := slug)]
    · rcases List.mem_append.1 hb with hb | hb
      · exact List.mem_append_left _ (h.own b hb hbf)
      · exact List.mem_append_right _ (by rw [List.mem_singleton.1 hb]; simp)
    · rcases List.mem_append.1 hs with hs | hs
      · exact List.mem_append_left _ (h.listed _ hs)
      · exact List.mem_append_right _ hs

/-- **A subfolder**, with its slugs as they are. -/
theorem folder (h : Shows dirs slugs direct as) {name : Text} {more moreDirect : List Text} {below : List Address}
    (hm : Shows (dirs ++ [name]) more moreDirect below)
    (hbelow : ∀ a ∈ below, dirs ++ [name] <+: a ∧ a ≠ dirs ++ [name])
    (hnew : ∀ a ∈ as, ¬ dirs ++ [name] <+: a) : Shows dirs (slugs ++ more) direct (as ++ below) := by
  have hfolders : ∀ a ∈ below, dirs ++ [name] <+: a.folders := by
    intro a ha
    obtain ⟨⟨rest, rfl⟩, hne⟩ := hbelow a ha
    have hr : rest ≠ [] := fun hr => hne (by simp [hr])
    rw [Address.folders, List.dropLast_append_of_ne_nil hr]
    exact List.prefix_append _ _
  refine ⟨?_, fun slug => ?_, fun a ha hf => ?_, fun slug hs => List.mem_append_left _ (h.listed _ hs), fun a ha => ?_⟩
  · refine List.nodup_append.2 ⟨h.nodup, hm.nodup, fun slug hs other ho he => ?_⟩
    obtain ⟨a, ha, rfl⟩ := (h.mem slug).1 hs
    obtain ⟨b, hb, rfl⟩ := (hm.mem other).1 ho
    have hfolder := (Address.slug_eq (h.slashless a ha) (hm.slashless b hb) he).1
    exact hnew a ha ((hfolder ▸ hfolders b hb).trans (List.dropLast_prefix a))
  · rw [List.mem_append, h.mem, hm.mem]
    simp only [List.mem_append, or_and_right, exists_or]
  · rcases List.mem_append.1 ha with ha | ha
    · exact h.own a ha hf
    · have hp := (hfolders a ha).length_le
      rw [hf, List.length_append, List.length_singleton] at hp
      omega
  · rcases List.mem_append.1 ha with ha | ha
    · exact h.slashless a ha
    · exact hm.slashless a ha

/-- **The same slugs in another order**, with as many direct ones as are listed. -/
theorem perm (h : Shows dirs slugs direct as) {slugs' direct' : List Text} (hp : slugs.Perm slugs')
    (hd : ∀ slug ∈ direct, slug ∈ direct') (hl : ∀ slug ∈ direct', slug ∈ slugs') : Shows dirs slugs' direct' as :=
  ⟨hp.nodup_iff.1 h.nodup, fun slug => hp.mem_iff.symm.trans (h.mem slug), fun a ha hf => hd _ (h.own a ha hf),
    hl, h.slashless⟩

end Shows

/-! ## Groups -/

theorem Shows.addPage {dirs : List Text} {g : Nav.Group} {as : List Address} (h : Shows dirs g.slugs g.pages as)
    {a : Address} (hf : a.folders = dirs) (ha : a.Slashless) :
    Shows dirs (g.addPage a.slug).2.slugs (g.addPage a.slug).2.pages (as ++ [a]) := by
  have hpage := h.page hf ha
  by_cases hm : a.slug ∈ g.pages
  · rw [Group.addPage_of_mem hm]
    simpa [hm] using hpage
  · rw [Group.slugs_addPage hm]
    have hp : (g.addPage a.slug).2.pages = g.pages ++ [a.slug] := by
      rw [Group.addPage, if_neg hm]
      simp [Group.pages, Item.slug?]
    rw [hp]
    simpa [hm] using hpage

/-- **A nested group added to a group.** -/
theorem Shows.addGroup {dirs : List Text} {g child : Nav.Group} {as below : List Address} {name : Text}
    (h : Shows dirs g.slugs g.pages as) (hc : Shows (dirs ++ [name]) child.slugs child.pages below)
    (hbelow : ∀ a ∈ below, dirs ++ [name] <+: a ∧ a ≠ dirs ++ [name])
    (hnew : ∀ a ∈ as, ¬ dirs ++ [name] <+: a) :
    Shows dirs (g.addGroup child).2.slugs (g.addGroup child).2.pages (as ++ below) := by
  have hfolder := h.folder hc hbelow hnew
  cases he : child.isEmpty with
  | true =>
    have hg : (g.addGroup child).2 = g := by simp [Group.addGroup, he]
    have hslugs : child.slugs = [] := by
      rw [Group.slugs, List.isEmpty_iff.1 he]
      rfl
    rw [hg]
    simpa [hslugs] using hfolder
  | false =>
    have hp : (g.addGroup child).2.pages = g.pages := by
      simp [Group.addGroup, he, Group.pages, Group.toItem, Item.slug?]
    rw [Group.slugs_addGroup he, hp]
    exact hfolder

end DocFerry.Site
