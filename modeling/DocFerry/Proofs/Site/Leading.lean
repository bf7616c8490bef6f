import DocFerry.Proofs.Site.Overwriting
/-!
# What the entries of a folder lead to

The documents that some entries of a folder lead to are converted entry by entry (`Led`): those of a subfolder come
after those before it and are written to other places (`Led.folder`), and a page is one more document (`Led.page`).
Every document that is reached through the entries is among those of the list, if each entry has been looked into
(`Exhausted`).
-/
namespace DocFerry.Site

open Files Nav

/-! ## Addresses -/

theorem Address.append_eq {a : Address} (h : a ≠ []) : a.folders ++ [a.file] = a := by
  rw [Address.folders, Address.file, List.getLast?_eq_some_getLast h, Option.getD_some, List.dropLast_append_getLast h]

theorem Address.under_of_folders {dirs : List Text} {a : Address} (h : dirs <+: a.folders) : dirs <+: a :=
  h.trans (List.dropLast_prefix a)

theorem Address.folders_of_under {dirs : List Text} {name : Text} {a : Address} (h : dirs ++ [name] <+: a) :
    dirs <+: a.folders := by
  obtain ⟨rest, rfl⟩ := h
  rw [Address.folders, List.append_assoc, List.singleton_append,
    List.dropLast_append_of_ne_nil (List.cons_ne_nil _ _)]
  exact List.prefix_append _ _

/-- **Documents that are written to one place** are in one folder, and have one base name. -/
theorem Address.target_eq_iff {a b : Address} :
    a.target = b.target ↔ a.folders = b.folders ∧ Path.baseName a.file = Path.baseName b.file := by
  constructor
  · intro h
    obtain ⟨hfolders, hnames⟩ := List.append_inj' h rfl
    exact ⟨hfolders, List.append_cancel_right (List.singleton_inj.1 hnames)⟩
  · rintro ⟨hfolders, hbase⟩
    rw [Address.target, Address.target, hfolders, hbase]

/-- **Documents of one folder have one slug** exactly if they are written to one place. -/
theorem Address.listed_eq_iff {a b : Address} (hfolders : a.folders = b.folders) (ha : '/' ∉ a.file)
    (hb : '/' ∉ b.file) : a.listed = b.listed ↔ a.target = b.target := by
  rw [Address.target_eq_iff, Address.listed, Address.listed, hfolders]
  have hbase : ∀ {name : Text}, '/' ∉ name → '/' ∉ Path.baseName name := fun h hc => h (mem_of_mem_baseName hc)
  exact ⟨fun h => ⟨rfl, baseName_eq_of_slug (hbase ha) (hbase hb) h⟩, fun h => by rw [h.2]⟩

/-! ## Entries of a folder -/

/-- **What some entries of a folder lead to**, converted. -/
structure Led (docs output : Path) (dirs : List Text) (w : World) (entries : List Sibling) (as : List Address)
    (u : World) : Prop where
  converts : Converts docs output w as u
  under : ∀ a ∈ as, ∃ s ∈ entries, dirs ++ [s.name] <+: a

/-- **Every document that some entries of a folder lead to** is among those of a list. -/
def Exhausted (docs : Path) (dirs : List Text) (w : World) (entries : List Sibling) (as : List Address) : Prop :=
  ∀ s ∈ entries, ∀ a, PageAt w.disk docs a → dirs ++ [s.name] <+: a → a ∈ as

variable {convert : Converter} {docs output : Path} {dirs : List Text} {w u v : World} {entries before : List Sibling}
  {s : Sibling} {as bs : List Address}

theorem Led.refl (docs output : Path) (dirs : List Text) (w : World) : Led docs output dirs w [] [] w :=
  ⟨.refl _ _ _, by simp⟩

theorem Led.within (h : Led docs output dirs w entries as u) : ∀ a ∈ as, dirs <+: a.folders := by
  intro a ha
  obtain ⟨s, _, hunder⟩ := h.under a ha
  exact Address.folders_of_under hunder

theorem Led.mono (h : Led docs output dirs w before as u) (hsub : before.Sublist entries) :
    Led docs output dirs w entries as u := by
  refine ⟨h.converts, fun a ha => ?_⟩
  obtain ⟨s, hm, hunder⟩ := h.under a ha
  exact ⟨s, hsub.subset hm, hunder⟩

theorem Exhausted.nil (docs : Path) (dirs : List Text) (w : World) : Exhausted docs dirs w [] [] := by simp [Exhausted]

/-- **One more entry**, with what it leads to. -/
theorem Exhausted.concat (h : Exhausted docs dirs w before as)
    (hnew : ∀ a, PageAt w.disk docs a → dirs ++ [s.name] <+: a → a ∈ bs) :
    Exhausted docs dirs w (before ++ [s]) (as ++ bs) := by
  intro t ht a ha hunder
  rcases List.mem_append.1 ht with ht | ht
  · exact List.mem_append_left _ (h t ht a ha hunder)
  · rw [List.mem_singleton.1 ht] at hunder
    exact List.mem_append_right _ (hnew a ha hunder)

/-- **The entry on the way to a document** is a folder around it, or the document itself. -/
theorem PageAt.entry (hs : w.disk.Sound) (hentries : siblings w.disk (docs.descend dirs) = .ok entries)
    (hm : s ∈ entries) {a : Address} (ha : PageAt w.disk docs a) (hunder : dirs ++ [s.name] <+: a) :
    s.isDirectory = true ∧ dirs ++ [s.name] <+: a.folders ∨ s.isPage = true ∧ a = dirs ++ [s.name] := by
  obtain ⟨rest, rfl⟩ := hunder
  have hname := (ha.names s.name (by simp)).1
  have hfile : w.disk.HasFile ((docs.descend dirs).descend (s.name :: rest)) := by
    have hf := ha.file
    simpa [Path.descend] using hf
  obtain ⟨t, ht, htname, _, hdir⟩ := entry_on_the_way hs hentries hname hfile
  obtain rfl : t = s := List.inj_on_of_nodup_map (nodup_of_siblings hs hentries) ht hm htname
  by_cases hrest : rest = []
  · subst hrest
    rw [List.append_nil] at ha ⊢
    have hpage := ha.page
    rw [Address.file_append] at hpage
    have hfile : t.isDirectory = false := Bool.eq_false_iff.2 fun hd => hdir.1 hd rfl
    exact .inr ⟨by simp [Sibling.isPage, hfile, hpage], rfl⟩
  · refine .inl ⟨hdir.2 hrest, ?_⟩
    rw [Address.folders, List.dropLast_append_of_ne_nil hrest]
    exact List.prefix_append _ _

/-- **Every document in a folder** is led to by an entry. -/
theorem PageAt.exists_entry (hs : w.disk.Sound) (hentries : siblings w.disk (docs.descend dirs) = .ok entries)
    {a : Address} (ha : PageAt w.disk docs a) (hfolders : dirs <+: a.folders) : ∃ s ∈ entries, dirs ++ [s.name] <+: a := by
  obtain ⟨rest, hrest⟩ := hfolders
  obtain ⟨name, tail, htail⟩ := List.exists_cons_of_ne_nil (List.append_ne_nil_of_right_ne_nil rest
    (List.cons_ne_nil a.file []))
  have hsplit : a = dirs ++ name :: tail := by
    rw [← htail, ← List.append_assoc, hrest, Address.append_eq ha.ne_nil]
  have hfile : w.disk.HasFile ((docs.descend dirs).descend (name :: tail)) := by
    have hf := ha.file
    rw [hsplit] at hf
    simpa [Path.descend] using hf
  obtain ⟨s, hm, rfl, _⟩ := entry_on_the_way hs hentries (ha.names name (by rw [hsplit]; simp)).1 hfile
  exact ⟨s, hm, tail, by rw [hsplit, List.append_assoc, List.singleton_append]⟩

namespace Exhausted

/-- **What an entry leads to**, if it is a folder. -/
theorem folder (h : Exhausted docs dirs w before as) (hs : w.disk.Sound)
    (hentries : siblings w.disk (docs.descend dirs) = .ok entries) (hm : s ∈ entries) (hdir : s.isDirectory = true)
    (hlater : Emits output w u) (hevery : ∀ a, PageAt u.disk docs a → dirs ++ [s.name] <+: a.folders → a ∈ bs) :
    Exhausted docs dirs w (before ++ [s]) (as ++ bs) := by
  refine h.concat fun a ha hunder => ?_
  rcases ha.entry hs hentries hm hunder with ⟨_, hfolders⟩ | ⟨hpage, _⟩
  · exact hevery a (ha.of_emits hs hlater) hfolders
  · simp [Sibling.isPage, hdir] at hpage

/-- **What an entry leads to**, if it is no folder: a page is a document itself. -/
theorem file (h : Exhausted docs dirs w before as) (hs : w.disk.Sound)
    (hentries : siblings w.disk (docs.descend dirs) = .ok entries) (hm : s ∈ entries) (hdir : ¬ s.isDirectory = true)
    (hpage : s.isPage = true → dirs ++ [s.name] ∈ bs) : Exhausted docs dirs w (before ++ [s]) (as ++ bs) := by
  refine h.concat fun a ha hunder => ?_
  rcases ha.entry hs hentries hm hunder with ⟨hd, _⟩ | ⟨hp, rfl⟩
  · exact absurd hd hdir
  · exact hpage hp

end Exhausted

section Entry

variable (hs : w.disk.Sound) (hentries : siblings w.disk (docs.descend dirs) = .ok entries)
  (hsub : (before ++ [s]).Sublist entries)

include hs hentries hsub

theorem Led.path : s ∈ entries ∧ s.path = docs.descend (dirs ++ [s.name]) ∧ IsEntryName s.name := by
  have hm : s ∈ entries := hsub.subset (by simp)
  obtain ⟨hpath, hname⟩ := path_of_siblings hs hentries hm
  exact ⟨hm, by rw [hpath, Path.child_descend], hname⟩

omit hs in
/-- **What an entry leads to** comes after what those before it lead to. -/
theorem Led.listedBefore (h : Led docs output dirs w before as u) (hv : Emits output w v) {a b : Address} (ha : a ∈ as)
    (hb : dirs ++ [s.name] <+: b) : ListedBefore docs output w v a b := by
  obtain ⟨t, ht, hunder⟩ := h.under a ha
  have htwo : [t, s].Sublist (before ++ [s]) := (List.singleton_sublist.2 ht).append (.refl [s])
  exact ⟨w, dirs, entries, t, s, .refl _ _, hv, hentries, htwo.trans hsub, hunder, hb⟩

/-- **What an entry leads to**, if it is a folder. -/
theorem Led.folder (h : Led docs output dirs w before as u) (k : Converts docs output u bs v)
    (hunder : ∀ b ∈ bs, dirs ++ [s.name] <+: b.folders) : Led docs output dirs w (before ++ [s]) (as ++ bs) v := by
  have hbelow : ∀ b ∈ bs, dirs ++ [s.name] <+: b := fun b hb => Address.under_of_folders (hunder b hb)
  have hlater : Emits output w v := h.converts.emits.trans output _ _ _ k.emits
  refine ⟨h.converts.append hs k (fun a ha b hb => h.listedBefore hentries hsub hlater ha (hbelow b hb))
    fun a ha b hb he => ?_, fun a ha => ?_⟩
  · -- Documents of one place are in one folder, so both would be under one entry.
    obtain ⟨t, ht, htunder⟩ := h.under a ha
    have hsame : t.name = s.name := by
      refine eq_of_under htunder (Address.under_of_folders ?_)
      rw [(Address.target_eq_iff.1 he).1]
      exact hunder b hb
    have hnodup := (nodup_of_siblings hs hentries).sublist (hsub.map Sibling.name)
    rw [List.map_append, List.map_singleton, ← hsame] at hnodup
    exact (List.nodup_append.1 hnodup).2.2 _ (List.mem_map_of_mem ht) _ (List.mem_singleton_self _) rfl
  · rcases List.mem_append.1 ha with ha | ha
    · obtain ⟨t, ht, htunder⟩ := h.under a ha
      exact ⟨t, List.mem_append_left _ ht, htunder⟩
    · exact ⟨s, by simp, hbelow a ha⟩

/-- **A page that is not written** leads to nothing. -/
theorem Led.unwritten (hp : output.Proper) (hdirs : ∀ name ∈ dirs, IsEntryName name ∧ isHidden name = false)
    (h : Led docs output dirs w before as u) {failure : Failure} {label : Option Text}
    (hwrite : writePage convert output s.path (Text.join ['/'] dirs) label u = (.error failure, v)) :
    Led docs output dirs w (before ++ [s]) as v := by
  obtain ⟨_, hpath, hname⟩ := Led.path hs hentries hsub
  have hbase : s.path.name = s.name := by rw [hpath, ← Path.child_descend, Path.name_child]
  obtain ⟨hwritten, hlog⟩ := writePage_eq_error hwrite
  have hemits := @writePage_emits convert output hp s.path dirs (fun name hn => (hdirs name hn).1)
    (hbase.symm ▸ hname.1.2) label u
  rw [hwrite] at hemits
  have hquiet : Led docs output dirs w before as v := ⟨h.converts.quiet hs hemits hwritten hlog, h.under⟩
  exact hquiet.mono (List.sublist_append_left _ _)

/-- **What an entry leads to**, if it is a page that is written. -/
theorem Led.page (hp : output.Proper) (hdirs : ∀ name ∈ dirs, IsEntryName name ∧ isHidden name = false)
    (hshown : s.isIgnored = false) (hpage : s.isPage = true) (h : Led docs output dirs w before as u) {slug : Text}
    {label : Option Text} (hwrite : writePage convert output s.path (Text.join ['/'] dirs) label u = (.ok slug, v))
    {x : World} (hdisk : x.disk = v.disk) (hwritten : x.written = v.written)
    (hwarns : warnings x.log = warnings v.log ++
      if (∃ b ∈ as, b.target = Address.target (dirs ++ [s.name])) ∧ dirs ≠ [] then
        [overwriteRecord docs (dirs ++ [s.name])] else []) :
    Led docs output dirs w (before ++ [s]) (as ++ [dirs ++ [s.name]]) x := by
  obtain ⟨hm, hpath, hname⟩ := Led.path hs hentries hsub
  have hbase : s.path.name = s.name := by rw [hpath, ← Path.child_descend, Path.name_child]
  have hnames : ∀ name ∈ dirs, IsEntryName name := fun name hn => (hdirs name hn).1
  obtain ⟨htargets, hquiet⟩ := writePage_notes hwrite
  rw [hbase, targetPath_join output hnames hname.1.2] at htargets
  have hemits : Emits output u v := by
    have hk := @writePage_emits convert output hp s.path dirs hnames (hbase.symm ▸ hname.1.2) label u
    rwa [hwrite] at hk
  have hpageAt : PageAt u.disk docs (dirs ++ [s.name]) := by
    refine ⟨List.forall_mem_append.2 ⟨hdirs, List.forall_mem_singleton.2 ⟨hname, ?_⟩⟩, ?_, ?_⟩
    · rw [← isIgnored_eq_isHidden, hshown]
    · rw [Address.file_append]
      simp only [Sibling.isPage, Bool.and_eq_true] at hpage
      exact hpage.2
    · rw [← hpath]
      exact (hasFile_of_writePage hwrite).1
  obtain ⟨_, hgrows⟩ := h.converts.emits.grows hs
  have hstep : Emits output u x := hemits.trans output _ _ _ (emits_of_same hdisk hwritten)
  have hlater : Emits output w x := h.converts.emits.trans output _ _ _ hstep
  refine ⟨h.converts.page hs hstep ?_ ?_ (fun b hb => h.listedBefore hentries hsub hlater hb (List.prefix_refl _)) ?_,
    fun a ha => ?_⟩
  · rw [hwritten, htargets]
  · rw [hdisk]
    exact hpageAt.of_emits (hgrows.sound hs) hemits
  · rw [hwarns, hquiet, Address.folders_append]
  · rcases List.mem_append.1 ha with ha | ha
    · obtain ⟨t, ht, hunder⟩ := h.under a ha
      exact ⟨t, List.mem_append_left _ ht, hunder⟩
    · rw [List.mem_singleton.1 ha]
      exact ⟨s, by simp, List.prefix_refl _⟩

end Entry
end DocFerry.Site
