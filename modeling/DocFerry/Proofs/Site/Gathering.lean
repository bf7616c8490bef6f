import DocFerry.Proofs.Site.Shows
/-!
# What the entries of a folder yield

Each entry of a folder yields the documents that it leads to: a folder those that its walk yields (`folder_part`), a
page its own (`page_part`), and any other entry none (`other_part`).  Put together in the order of the entries, they
are the documents of the folder in their order (`gathered_of_parts`), and the folder's group lists the slug of each
once (`addSibling_yields`).

So a walk of a folder converts exactly the documents in it, in the order of their addresses, and its group lists the
slug of each of them once (`walkWithin_yields`).  The proof is by induction on the depth.
-/
namespace DocFerry.Site

open Files Nav

/-! ## Folders and entries taken apart -/

section TakenApart

variable {convert : Converter} {output directory : Path} {relative : Text} {g g' : Nav.Group} {w w' : World}

/-- **A folder that is walked**: its label is read and its entries listed, and those that are shown are added to the
group one after another. -/
theorem walkWithin_eq_ok {depth : Nat} (h : walkWithin convert output (depth + 1) directory relative w = (.ok g, w')) :
    ∃ label entries, Category.groupLabel w.disk directory = .ok label ∧ siblings w.disk directory = .ok entries ∧
      (entries.filter fun s => !s.isIgnored).foldlM
        (addSibling convert output (walkWithin convert output depth) relative label) { label := label } w =
        (.ok g, w') := by
  unfold walkWithin at h
  obtain ⟨label, _, hlabel, h₁⟩ := Action.bind_eq_ok_iff.1 h
  obtain ⟨hlabel, rfl⟩ := Job.check_eq_ok.1 hlabel
  obtain ⟨entries, _, hentries, h₂⟩ := Action.bind_eq_ok_iff.1 h₁
  obtain ⟨hentries, rfl⟩ := Job.check_eq_ok.1 hentries
  exact ⟨label, entries, hlabel, hentries, h₂⟩

theorem walk_eq_ok (h : walk convert output directory relative w = (.ok g, w')) :
    walkWithin convert output w.disk.depthBound directory relative w = (.ok g, w') := by
  obtain ⟨depth, _, hdepth, h⟩ := Action.bind_eq_ok_iff.1 h
  cases hdepth
  exact h

/-- **An entry added to a group**: a subfolder is walked and its group added, a page is written and listed, and any
other entry changes nothing. -/
theorem addSibling_eq_ok {below : Path → Text → Job Nav.Group} {label : Text} {s : Sibling}
    (h : addSibling convert output below relative label g s w = (.ok g', w')) :
    (s.isDirectory = true ∧ ∃ child, below s.path (joinPaths relative s.name) w = (.ok child, w') ∧
        g' = (g.addGroup child).2) ∨
      (s.isPage = true ∧ ∃ slug u, writePage convert output s.path relative (some label) w = (.ok slug, u) ∧
        g' = (g.addPage slug).2 ∧ w'.disk = u.disk ∧ w'.written = u.written) ∨
      s.isDirectory = false ∧ s.isPage = false ∧ g' = g ∧ w' = w := by
  unfold addSibling at h
  split at h
  · rename_i hdir
    obtain ⟨child, u, hchild, h⟩ := Action.bind_eq_ok_iff.1 h
    obtain ⟨rfl, rfl⟩ := Action.pure_eq_ok_iff.1 h
    exact .inl ⟨hdir, child, hchild, rfl⟩
  · rename_i hdir
    split at h
    · rename_i hpage
      obtain ⟨slug, u, hslug, h⟩ := Action.bind_eq_ok_iff.1 h
      refine .inr (.inl ⟨hpage, slug, u, hslug, ?_⟩)
      generalize g.addPage slug = result at h ⊢
      obtain ⟨added, listed⟩ := result
      cases added with
      | true =>
        obtain ⟨rfl, rfl⟩ := Action.pure_eq_ok_iff.1 h
        exact ⟨rfl, rfl, rfl⟩
      | false =>
        obtain ⟨_, v, htell, h⟩ := Action.bind_eq_ok_iff.1 h
        cases htell
        obtain ⟨rfl, rfl⟩ := Action.pure_eq_ok_iff.1 h
        exact ⟨rfl, rfl, rfl⟩
    · rename_i hpage
      obtain ⟨rfl, rfl⟩ := Action.pure_eq_ok_iff.1 h
      exact .inr (.inr ⟨by simpa using hdir, by simpa using hpage, rfl, rfl⟩)

end TakenApart

/-! ## Entries put together -/

theorem precedes_of_comesBefore {d : Disk} {name other : Text} {rest rest' : Address} : ∀ (dirs : List Text)
    {l : Location}, ComesBefore d (l ++ dirs) name other →
      Precedes d l (dirs ++ name :: rest) (dirs ++ other :: rest')
  | [], l, h => by
    rw [List.append_nil] at h
    rw [List.nil_append, List.nil_append, Precedes, if_neg h.1]
    exact h
  | dir :: dirs, l, h => by
    rw [List.cons_append, List.cons_append, Precedes, if_pos rfl]
    exact precedes_of_comesBefore dirs (by simpa using h)

theorem eq_of_under {dirs : List Text} {name other : Text} {a : Address} (h : dirs ++ [name] <+: a)
    (k : dirs ++ [other] <+: a) : name = other := by
  have he := (List.prefix_of_prefix_length_le h k (by simp)).eq_of_length (by simp)
  simpa using he

theorem Part.ranked {d : Disk} {l : Location} {P : Address → Prop} {dirs : List Text} {s : Sibling} {as : List Address}
    (h : Part d l P dirs s as) {a : Address} (ha : a ∈ as) :
    dirs ++ [s.name] <+: a ∧ s.rank = rankAt d (l ++ dirs) s.name :=
  ⟨((h.mem a).1 ha).2, h.rank (List.ne_nil_of_mem ha)⟩

/-- **What the entries of a folder yield, put together**: the documents that they lead to, in order. -/
theorem gathered_of_parts {d : Disk} {l : Location} {P : Address → Prop} {dirs : List Text} {entries : List Sibling}
    {parts : List (List Address)} (hparts : List.Forall₂ (Part d l P dirs) entries parts)
    (horder : entries.Pairwise fun s t => s.le t = true ∧ s.name ≠ t.name) :
    (∀ a, a ∈ parts.flatten ↔ P a ∧ ∃ s ∈ entries, dirs ++ [s.name] <+: a) ∧
      parts.flatten.Pairwise (Precedes d l) ∧
      ∀ a ∈ parts.flatten, ∃ s ∈ entries, dirs ++ [s.name] <+: a ∧ s.rank = rankAt d (l ++ dirs) s.name := by
  induction hparts with
  | nil => simp
  | @cons s as entries parts hs _ ih =>
    obtain ⟨hfirst, hrest⟩ := List.pairwise_cons.1 horder
    obtain ⟨hmem, hpairwise, hranked⟩ := ih hrest
    refine ⟨fun a => ?_, ?_, fun a ha => ?_⟩
    · rw [List.flatten_cons, List.mem_append, hs.mem, hmem, ← and_or_left]
      simp
    · rw [List.flatten_cons, List.pairwise_append]
      refine ⟨hs.order, hpairwise, fun a ha b hb => ?_⟩
      -- The two come from different entries, whose order is that of the ranks and names on the disk.
      obtain ⟨ha, hsrank⟩ := hs.ranked ha
      obtain ⟨t, ht, hb, htrank⟩ := hranked b hb
      obtain ⟨hle, hne⟩ := hfirst t ht
      obtain ⟨rest, rfl⟩ := ha
      obtain ⟨rest', rfl⟩ := hb
      rw [List.append_assoc, List.append_assoc]
      refine precedes_of_comesBefore dirs ⟨hne, ?_⟩
      rw [← hsrank, ← htrank]
      simpa [Sibling.le] using hle
    · rcases List.mem_append.1 (List.flatten_cons ▸ ha) with ha | ha
      · exact ⟨s, List.mem_cons_self, hs.ranked ha⟩
      · obtain ⟨t, ht, hrank⟩ := hranked a ha
        exact ⟨t, List.mem_cons_of_mem _ ht, hrank⟩

/-! ## Slugs of pages -/

theorem forwardSlashes_of_not_mem {s : Text} (h : '\\' ∉ s) : forwardSlashes s = s := by
  unfold forwardSlashes
  conv_rhs => rw [← List.map_id s]
  refine List.map_congr_left fun c hc => ?_
  have hne : c ≠ '\\' := fun he => h (he ▸ hc)
  rw [if_neg hne]
  rfl

/-- **The slug of a page** is that of its document, where no folder's name holds a backslash. -/
theorem slug_join {dirs : List Text} {name : Text} (hd : ∀ n ∈ dirs, IsEntryName n) (hb : ∀ n ∈ dirs, '\\' ∉ n)
    (hf : '/' ∉ name) : Nav.slug (Text.join ['/'] dirs) (Path.baseName name) = Address.slug (dirs ++ [name]) := by
  have hhead : (Path.baseName name).head? ≠ some '/' := fun h => hf (mem_of_mem_baseName (List.mem_of_head? h))
  have hplain : '\\' ∉ Text.join ['/'] dirs := fun h => by
    rcases Text.mem_join h with h | ⟨n, hn, h⟩
    · simp at h
    · exact hb n hn h
  have hdrop : ∀ s : Text, s.head? ≠ some '/' → s.dropWhile (· == '/') = s := by
    intro s hs
    cases s with
    | nil => rfl
    | cons c s => rw [List.dropWhile_cons_of_neg (by simpa using hs)]
  rw [Nav.slug, forwardSlashes_of_not_mem hplain, joinPaths_join dirs hhead fun n hn => (hd n hn).1, Address.slug,
    Address.folders_append, Address.file_append]
  refine hdrop _ ?_
  by_cases hdirs : dirs = []
  · simpa [hdirs, Text.join] using hhead
  · obtain ⟨_, _, hlast⟩ := Path.getLast?_join hdirs fun n hn => (hd n hn).1
    have hne : Text.join ['/'] dirs ≠ [] := fun he => by simp [he] at hlast
    rw [Text.join_append_singleton _ _ _ hdirs, List.append_assoc, List.head?_append_of_ne_nil _ hne]
    exact Path.head?_join fun n hn => (hd n hn).1

/-! ## One entry -/

/-- **What is gathered by a part of a run**: the documents that a condition picks, each converted and written once and
in order. -/
structure Gathered (d : Disk) (convert : Converter) (docs output : Path) (old es : List Emission) (P : Address → Prop)
    (as : List Address) (w : World) : Prop where
  mem : ∀ a, a ∈ as ↔ P a
  order : as.Pairwise (Precedes d (d.settle docs))
  progress : Progress d convert output old (es ++ as.map (emissionAt d (d.settle docs) output)) w

/-- **No folder of a document has a backslash in its name.** -/
def Plain (d : Disk) (l : Location) : Prop := ∀ a, IsDocument d l a → ∀ name ∈ a.folders, '\\' ∉ name

variable {d : Disk} {convert : Converter} {docs output : Path} {old : List Emission}

theorem groupLabel_eq_ok {e : Disk} {p : Path} {l : Location} {label : Text} (hf : e.find p = .ok ⟨l, some .directory⟩)
    (hl : e.LinkFree l) (hname : p.name = l.getLast?.getD []) (h : Category.groupLabel e p = .ok label) :
    label = labelAt e l := by
  obtain ⟨c, hc, h⟩ := bind_eq_ok h
  rw [labelAt, read_category hf hl hc, ← Except.ok.inj h, hname]
  cases c.label <;> rfl

theorem isIgnored_eq_isHidden (s : Sibling) : s.isIgnored = isHidden s.name := rfl

theorem Apart.slashless (h : Apart d docs output) {a : Address} (ha : IsDocument d (d.settle docs) a) : a.Slashless := by
  obtain ⟨bytes, hf⟩ := ha.file
  exact fun name hn => (isEntryName_of_isFileName (h.names a bytes hf name hn)).1.2

/-- **A walk that yields the documents of a folder**: it converts exactly those, in order, and lists the slug of each
of them once. -/
def Yields (d : Disk) (convert : Converter) (docs output : Path) (old : List Emission)
    (walk : Path → Text → Job Nav.Group) (dirs : List Text) : Prop :=
  ∀ es w w' g, Progress d convert output old es w → walk (docs.descend dirs) (Text.join ['/'] dirs) w = (.ok g, w') →
    refusal? (docs.descend dirs) = none ∧ ∃ as, Gathered d convert docs output old es
      (fun a => IsDocument d (d.settle docs) a ∧ dirs <+: a) as w' ∧
      (Plain d (d.settle docs) → Shows dirs g.slugs g.pages as)

/-- **An entry of a folder as it is listed**, and not hidden. -/
structure Shown (d : Disk) (docs output : Path) (dirs : List Text) (s : Sibling) : Prop where
  above : ∀ name ∈ dirs, IsEntryName name ∧ isHidden name = false
  listed : ∃ d₀ entries, d.Grows (.below (d.settle output)) d₀ ∧ s ∈ entries ∧
    Lists d₀ (docs.descend dirs) (d.settle docs ++ dirs) entries
  shown : isHidden s.name = false

section Entry

variable {dirs : List Text} {s : Sibling} {es : List Emission} {w w' : World}

theorem Shown.names (h : Apart d docs output) (hs : Shown d docs output dirs s) :
    ∀ name ∈ dirs ++ [s.name], IsEntryName name ∧ isHidden name = false := by
  obtain ⟨d₀, entries, hg, hm, hl⟩ := hs.listed
  intro name hn
  rcases List.mem_append.1 hn with hn | hn
  · exact hs.above name hn
  · rw [List.mem_singleton.1 hn]
    exact ⟨hl.entryName (hg.sound h.sound) hm, hs.shown⟩

theorem Shown.path (hs : Shown d docs output dirs s) : s.path = docs.descend (dirs ++ [s.name]) := by
  obtain ⟨_, _, _, hm, hl⟩ := hs.listed
  rw [(hl.fits s hm).path, Path.child_descend]

theorem Shown.relative (h : Apart d docs output) (hs : Shown d docs output dirs s) :
    joinPaths (Text.join ['/'] dirs) s.name = Text.join ['/'] (dirs ++ [s.name]) := by
  refine joinPaths_join dirs (fun hc => ?_) fun name hn => (hs.above name hn).1.1
  exact (hs.names h s.name (by simp)).1.1.2 (List.mem_of_head? hc)

theorem Shown.not_file (h : Apart d docs output) (hs : Shown d docs output dirs s) (hdir : s.isDirectory = true) :
    ∀ bytes, d.locate? (d.settle docs ++ (dirs ++ [s.name])) ≠ some (.file bytes) := by
  obtain ⟨_, _, hg, hm, hl⟩ := hs.listed
  intro bytes hf
  have hfolder := (hl.fits s hm).folder hdir
  rw [List.append_assoc, (h.file_iff hg (List.prefix_append _ _)).2 hf] at hfolder
  cases hfolder

/-- **A folder that is walked** yields the documents in it. -/
theorem folder_part (h : Apart d docs output) (hs : Shown d docs output dirs s) {walk : Path → Text → Job Nav.Group}
    (hwalk : Yields d convert docs output old walk (dirs ++ [s.name])) (hdir : s.isDirectory = true)
    (hp : Progress d convert output old es w) {g : Nav.Group}
    (hw : walk s.path (Text.join ['/'] (dirs ++ [s.name])) w = (.ok g, w')) :
    ∃ more, Part d (d.settle docs) (IsDocument d (d.settle docs)) dirs s more ∧
      Progress d convert output old (es ++ more.map (emissionAt d (d.settle docs) output)) w' ∧
      (Plain d (d.settle docs) → Shows (dirs ++ [s.name]) g.slugs g.pages more) ∧
      ∀ a ∈ more, dirs ++ [s.name] <+: a ∧ a ≠ dirs ++ [s.name] := by
  obtain ⟨d₀, entries, hg, hm, hl⟩ := id hs.listed
  obtain ⟨hrefused, more, hmore, hshows⟩ := hwalk es w w' g hp (hs.path ▸ hw)
  refine ⟨more, ⟨hmore.mem, hmore.order, fun hne => ?_⟩, hmore.progress, hshows, fun a ha => ?_⟩
  · obtain ⟨a, ha⟩ := List.exists_mem_of_ne_nil more hne
    obtain ⟨hdoc, hbelow⟩ := (hmore.mem a).1 ha
    exact h.rank_eq hg hl hm (hs.path ▸ hrefused) hdoc hbelow
  · obtain ⟨hdoc, hbelow⟩ := (hmore.mem a).1 ha
    obtain ⟨bytes, hf⟩ := hdoc.file
    exact ⟨hbelow, fun he => hs.not_file h hdir bytes (he ▸ hf)⟩

/-- **A page that is written** yields its document. -/
theorem page_part (h : Apart d docs output) (hs : Shown d docs output dirs s) (hpage : s.isPage = true)
    (hp : Progress d convert output old es w) {slug : Text} {label : Option Text}
    (hlabel : label = some (groupLabelOf d (d.settle docs) (dirs ++ [s.name])))
    (hw : writePage convert output s.path (Text.join ['/'] dirs) label w = (.ok slug, w')) :
    Part d (d.settle docs) (IsDocument d (d.settle docs)) dirs s [dirs ++ [s.name]] ∧
      Progress d convert output old (es ++ [emissionAt d (d.settle docs) output (dirs ++ [s.name])]) w' ∧
      Address.Slashless (dirs ++ [s.name]) ∧
      (Plain d (d.settle docs) → slug = Address.slug (dirs ++ [s.name])) := by
  obtain ⟨d₀, entries, hg, hm, hl⟩ := id hs.listed
  simp only [Sibling.isPage, Bool.and_eq_true] at hpage
  obtain ⟨hdoc, hpart, hslug, hprogress⟩ := page_of_folder h hg hp hs.above hl hm hs.shown hpage.2 hlabel hw
  refine ⟨hpart, hprogress, h.slashless hdoc, fun hplain => ?_⟩
  rw [hslug, slug_join (fun name hn => (hs.above name hn).1)]
  · have hfolders := hplain _ hdoc
    rwa [Address.folders_append] at hfolders
  · exact h.slashless hdoc _ (by simp)

/-- **An entry that is neither a folder nor a page** leads to no document. -/
theorem other_part (h : Apart d docs output) (hs : Shown d docs output dirs s) (hdir : s.isDirectory = false)
    (hpage : s.isPage = false) : Part d (d.settle docs) (IsDocument d (d.settle docs)) dirs s [] := by
  obtain ⟨d₀, entries, hg, hm, hl⟩ := id hs.listed
  refine .none fun a ha hbelow => ?_
  have hiff := h.isDirectory_of_document hg hl hm ha hbelow
  by_cases he : a = dirs ++ [s.name]
  · have hname := ha.page
    rw [he, Address.file_append] at hname
    simp [Sibling.isPage, hdir, hname] at hpage
  · rw [hiff.2 he] at hdir
    cases hdir

/-- **An entry added to a group** yields the documents that it leads to, and the group lists their slugs. -/
theorem addSibling_yields (h : Apart d docs output) (hs : Shown d docs output dirs s)
    {below : Path → Text → Job Nav.Group}
    (hbelow : s.isDirectory = true → Yields d convert docs output old below (dirs ++ [s.name])) {label : Text}
    (hlabel : label = groupLabelOf d (d.settle docs) (dirs ++ [s.name])) {g g' : Nav.Group} {as : List Address}
    (hp : Progress d convert output old (es ++ as.map (emissionAt d (d.settle docs) output)) w)
    (hshows : Plain d (d.settle docs) → Shows dirs g.slugs g.pages as) (hnew : ∀ a ∈ as, ¬ dirs ++ [s.name] <+: a)
    (hw : addSibling convert output below (Text.join ['/'] dirs) label g s w = (.ok g', w')) :
    ∃ more, Part d (d.settle docs) (IsDocument d (d.settle docs)) dirs s more ∧
      Progress d convert output old (es ++ (as ++ more).map (emissionAt d (d.settle docs) output)) w' ∧
      (Plain d (d.settle docs) → Shows dirs g'.slugs g'.pages (as ++ more)) := by
  rcases addSibling_eq_ok hw with ⟨hdir, child, hchild, rfl⟩ |
    ⟨hpage, slug, u, hslug, rfl, hdisk, hwritten⟩ | ⟨hdir, hpage, rfl, rfl⟩
  · rw [hs.relative h] at hchild
    obtain ⟨more, hpart, hprogress, hmore, hunder⟩ := folder_part h hs (hbelow hdir) hdir hp hchild
    exact ⟨more, hpart, by simpa using hprogress, fun hplain => (hshows hplain).addGroup (hmore hplain) hunder hnew⟩
  · obtain ⟨hpart, hprogress, hslashless, hname⟩ := page_part h hs hpage hp (congrArg some hlabel) hslug
    refine ⟨_, hpart, ?_, fun hplain => ?_⟩
    · simpa using hprogress.disk hdisk hwritten
    · rw [hname hplain]
      exact (hshows hplain).addPage (Address.folders_append _ _) hslashless
  · exact ⟨[], other_part h hs hdir hpage, by simpa using hp, by simpa using hshows⟩

end Entry

/-! ## Walks -/

section Walks

variable {d : Disk} {convert : Converter} {docs output : Path} {old : List Emission}

/-- **Entries of one list are told apart** by the addresses that they lead to. -/
theorem entries_apart {dirs : List Text} {entries : List Sibling}
    (h : entries.Pairwise fun s t => s.le t = true ∧ s.name ≠ t.name) :
    entries.Pairwise fun s t => ∀ a : Address, dirs ++ [s.name] <+: a → ¬ dirs ++ [t.name] <+: a :=
  h.imp fun hst _ hs ht => hst.2 (eq_of_under hs ht)

/-- **A walk of a folder yields the documents in it.** -/
theorem walkWithin_yields (h : Apart d docs output) : ∀ (depth : Nat) {dirs : List Text}, dirs ≠ [] →
    (∀ name ∈ dirs, IsEntryName name ∧ isHidden name = false) →
    (∀ bytes, d.locate? (d.settle docs ++ dirs) ≠ some (.file bytes)) →
    Yields d convert docs output old (walkWithin convert output depth) dirs
  | 0, _, _, _, _, _, _, _, _, _, hw => by cases hw
  | depth + 1, dirs, hne, hdirs, hplace, es, w, w', g, hp, hw => by
    obtain ⟨label, entries, hlabel, hentries, hentered⟩ := walkWithin_eq_ok hw
    have hl := h.lists hp.grows (not_mem_up fun name hn => (hdirs name hn).1) hentries
    have hlabel : label = labelAt d (d.settle docs ++ dirs) := by
      have hfree := (hp.grows.links.linkFree h.docs_free).below (List.prefix_append (d.settle docs) dirs)
      have hname : (docs.descend dirs).name = (d.settle docs ++ dirs).getLast?.getD [] := by
        simp only [Path.name, Path.descend, List.getLast?_append_of_ne_nil _ hne]
      rw [groupLabel_eq_ok hl.found hfree hname hlabel, labelAt, labelAt,
        h.categoryAt_eq hp.grows (List.prefix_append _ _)]
    have hshown : ∀ s ∈ entries.filter fun s => !s.isIgnored, Shown d docs output dirs s := by
      intro s hs
      rw [List.mem_filter, Bool.not_eq_true'] at hs
      exact ⟨hdirs, ⟨_, entries, hp.grows, hs.1, hl⟩, hs.2⟩
    -- Each entry yields the documents that it leads to, and the group lists their slugs.
    obtain ⟨parts, hparts, hprogress, hshows⟩ := Action.foldlM_gathers
      (I := fun g as u => Progress d convert output old (es ++ as.map (emissionAt d (d.settle docs) output)) u ∧
        (Plain d (d.settle docs) → Shows dirs g.slugs g.pages as))
      (G := Part d (d.settle docs) (IsDocument d (d.settle docs)) dirs) (Q := fun s a => dirs ++ [s.name] <+: a)
      (fun s more hpart a ha => (hpart.ranked ha).1) (entries.filter fun s => !s.isIgnored)
      (fun s hs g as u g' u' hi hnew hstep => addSibling_yields h (hshown s hs)
        (fun hdir => walkWithin_yields h depth (by simp) ((hshown s hs).names h) ((hshown s hs).not_file h hdir))
        (by rw [hlabel, groupLabelOf, Address.folders_append, if_neg hne]) hi.1 hi.2 hnew hstep)
      (entries_apart (hl.order.filter _)) ⟨by simpa using hp, fun _ => .empty dirs⟩ (by simp) hentered
    obtain ⟨hmem, horder, _⟩ := gathered_of_parts hparts (hl.order.filter _)
    rw [List.nil_append] at hprogress hshows
    refine ⟨(Disk.walks_of_find hl.found).1, parts.flatten, ⟨fun a => ?_, horder, hprogress⟩, hshows⟩
    rw [hmem]
    refine and_congr_right fun ha => ⟨?_, fun hbelow => ?_⟩
    · rintro ⟨s, _, hs⟩
      exact (List.prefix_append _ _).trans hs
    have hself : a ≠ dirs := by
      rintro rfl
      obtain ⟨bytes, hf⟩ := ha.file
      exact hplace bytes hf
    obtain ⟨s, hs, hunder⟩ := h.entry_listed hp.grows hl ha hbelow hself
    refine ⟨s, List.mem_filter.2 ⟨hs, ?_⟩, hunder⟩
    rw [isIgnored_eq_isHidden, ha.shown s.name (hunder.subset (by simp))]
    rfl

/-- **The walk of a run** yields the documents of the folder. -/
theorem walk_yields (h : Apart d docs output) {dirs : List Text} (hne : dirs ≠ [])
    (hdirs : ∀ name ∈ dirs, IsEntryName name ∧ isHidden name = false)
    (hplace : ∀ bytes, d.locate? (d.settle docs ++ dirs) ≠ some (.file bytes)) :
    Yields d convert docs output old (walk convert output) dirs := by
  intro es w w' g hp hw
  exact walkWithin_yields h _ hne hdirs hplace es _ _ _ hp (walk_eq_ok hw)

end Walks

end DocFerry.Site
