import DocFerry.Proofs.Site.Apart
import DocFerry.Proofs.Site.Jobs
/-!
# Pages written one after another

What a run has written so far, page by page: each page is on the disk, and holds the conversion of the last document
that was written to its place (`Progress`).  A page that is written was read, its folder made and its conversion put there
(`writePage_steps`), which takes the run one step on (`writePage_eq_ok`), and a page of a folder is written from the
document at its address (`page_of_folder`).
-/
namespace DocFerry.Site

open Files Nav

/-! ## Targets -/

theorem mem_of_mem_baseName {name : Text} {c : Char} (h : c ∈ Path.baseName name) : c ∈ name := by
  unfold Path.baseName at h
  split at h
  · rename_i d rest hr
    have hc : c ∈ name.reverse.dropWhile (· != '.') := hr ▸ List.mem_cons_of_mem _ (List.mem_reverse.1 h)
    exact List.mem_reverse.1 ((List.dropWhile_sublist _).subset hc)
  · exact h

/-- **The name of a new page** is one that an entry can have. -/
theorem newName_isEntryName {name : Text} (h : '/' ∉ name) : IsEntryName (Path.baseName name ++ newExtension) := by
  have hlast : (Path.baseName name ++ newExtension).getLast? = some 'x' := by
    rw [List.getLast?_append]
    rfl
  refine ⟨⟨?_, ?_⟩, fun he => ?_⟩
  · rw [Path.isName, Bool.and_eq_true, bne_iff_ne]
    refine ⟨?_, fun he => ?_⟩
    · rw [Bool.not_eq_true', List.isEmpty_eq_false_iff]
      intro he
      rw [he] at hlast
      cases hlast
    · rw [he] at hlast
      simp at hlast
  · rw [List.mem_append, not_or]
    exact ⟨fun hc => h (mem_of_mem_baseName hc), by decide⟩
  · rw [he] at hlast
    simp [Path.up] at hlast

theorem Address.folders_append (dirs : List Text) (name : Text) : Address.folders (dirs ++ [name]) = dirs := by
  simp [Address.folders]

theorem Address.file_append (dirs : List Text) (name : Text) : Address.file (dirs ++ [name]) = name := by
  simp [Address.file]

/-- **Every name of a new page's place** is one that an entry can have. -/
theorem Address.target_entryNames {a : Address} (hd : ∀ name ∈ a.folders, IsEntryName name) (hf : '/' ∉ a.file) :
    ∀ name ∈ a.target, IsEntryName name := by
  intro name hn
  rcases List.mem_append.1 hn with hn | hn
  · exact hd name hn
  · rw [List.mem_singleton.1 hn]
    exact newName_isEntryName hf

/-- **The path of a new page** is that of its names. -/
theorem targetPath_join (output : Path) {dirs : List Text} {name : Text} (hd : ∀ n ∈ dirs, IsEntryName n)
    (hf : '/' ∉ name) :
    targetPath output (Text.join ['/'] dirs) (Path.baseName name) = targetAt output (dirs ++ [name]) := by
  unfold targetPath targetAt Address.target
  rw [Path.joinText_join output fun n hn => (hd n hn).1, Path.joinText_of_isStep _ (newName_isEntryName hf).1,
    Path.child_descend, Address.folders_append, Address.file_append]

/-! ## Progress -/

/-- **What a run has written so far.** -/
structure Progress (d : Disk) (convert : Converter) (output : Path) (old es : List Emission) (w : World) : Prop where
  written : w.written = old ++ es
  grows : d.Grows (.below (d.settle output)) w.disk
  targets : ∀ e ∈ es, ∃ names, (∀ name ∈ names, IsEntryName name) ∧ e.target = output.descend names
  held : ∀ before e after, es = before ++ e :: after → (∀ f ∈ after, f.target ≠ e.target) →
    ∃ l, w.disk.find e.target = .ok ⟨l, some (.file (Text.Utf8.encode (convert e.request)))⟩

theorem Progress.start (d : Disk) (convert : Converter) (output : Path) (w : World)
    (hg : d.Grows (.below (d.settle output)) w.disk) : Progress d convert output w.written [] w where
  written := by simp
  grows := hg
  targets := by simp
  held before e after h := by simp at h

theorem Progress.disk {d : Disk} {convert : Converter} {output : Path} {old es : List Emission} {w w' : World}
    (h : Progress d convert output old es w) (hd : w'.disk = w.disk) (hw : w'.written = w.written) :
    Progress d convert output old es w' :=
  ⟨hw.trans h.written, hd ▸ h.grows, h.targets, hd ▸ h.held⟩

variable {d : Disk} {convert : Converter} {docs output : Path} {old es : List Emission} {w w' : World}

theorem Progress.page (h : Apart d docs output) (hp : Progress d convert output old es w) {names : List Text}
    (hn : ∀ name ∈ names, IsEntryName name) {request : Request} {d₁ d₂ : Disk} (hdirs : w.disk.Grows .none d₁)
    (hfile : d₁.withFile (output.descend names) (Text.Utf8.encode (convert request)) = .ok d₂)
    (hw : w' = { w with disk := d₂, written := w.written ++ [⟨output.descend names, request⟩], log := w'.log }) :
    Progress d convert output old (es ++ [⟨output.descend names, request⟩]) w' := by
  have hg₁ : d.Grows (.below (d.settle output)) d₁ := hp.grows.trans hdirs.wide
  have hsound := hg₁.sound h.sound
  have hproper : (output.descend names).Proper := proper_descend h.proper hn
  have hwrite : d₁.Grows (fun m => m = d.settle output ++ names) d₂ := by
    have hk := write_wrote hproper (Text.Utf8.encode (convert request)) d₁ hsound
    rw [write_eq, hfile] at hk
    refine hk.mono fun l ⟨p, bytes, hp, hf⟩ => ?_
    exact Disk.location_of_find_descend (hk.sound hsound) (hg₁.links.trans hk.links) h.output_free (not_mem_up hn)
      (hp ▸ hf)
  rw [hw]
  refine ⟨by simp [hp.written], hg₁.trans (hwrite.mono ?_), ?_, ?_⟩
  · rintro m rfl
    exact List.prefix_append _ _
  · intro e he
    rcases List.mem_append.1 he with he | he
    · exact hp.targets e he
    · exact ⟨names, hn, by rw [List.mem_singleton.1 he]⟩
  · intro before e after hes hlast
    rcases List.eq_nil_or_concat after with rfl | ⟨after, last, rfl⟩
    · obtain ⟨rfl, he⟩ := List.append_inj' hes rfl
      cases he
      obtain ⟨place, _, hf⟩ := Disk.find_of_withFile hfile
      exact ⟨_, hf⟩
    · rw [List.concat_eq_append, ← List.cons_append, ← List.append_assoc] at hes
      obtain ⟨rfl, he⟩ := List.append_inj' hes rfl
      cases he
      -- The page written before is elsewhere, because its path differs from the one just written to.
      obtain ⟨l, hf⟩ := hp.held before e after rfl fun f hf => hlast f (by simp [hf])
      obtain ⟨others, ho, ht⟩ := hp.targets e (by simp)
      have hf₁ := hdirs.find_file hf id
      have hl := Disk.location_of_find_descend hsound hg₁.links h.output_free (not_mem_up ho) (ht ▸ hf₁)
      refine ⟨l, hwrite.find_file hf₁ fun hm => ?_⟩
      have hne : (output.descend names) ≠ e.target := hlast ⟨output.descend names, request⟩ (by simp)
      simp only at hl
      rw [hl] at hm
      exact hne (by rw [ht, List.append_cancel_left hm])

/-- **A page that is written, step by step.** -/
theorem writePage_steps {source : Path} {relative slug : Text} {label : Option Text}
    (hw : writePage convert output source relative label w = (.ok slug, w')) :
    ∃ l bytes d₁ d₂, w.disk.find source = .ok ⟨l, some (.file bytes)⟩ ∧
      slug = Nav.slug relative (Path.baseName source.name) ∧
      makeDirectories true (targetPath output relative (Path.baseName source.name)).parent w.disk = (.ok (), d₁) ∧
      d₁.withFile (targetPath output relative (Path.baseName source.name)) (Text.Utf8.encode (convert
        ⟨documentText bytes, Path.baseName source.name, isIndexName (Path.baseName source.name), label⟩)) = .ok d₂ ∧
      w' = { w with
        disk := d₂
        written := w.written ++ [⟨targetPath output relative (Path.baseName source.name),
          ⟨documentText bytes, Path.baseName source.name, isIndexName (Path.baseName source.name), label⟩⟩]
        log := w'.log } := by
  unfold writePage at hw
  obtain ⟨raw, u, hraw, hw⟩ := Action.bind_eq_ok_iff.1 hw
  obtain ⟨hread, rfl⟩ := Job.check_eq_ok.1 hraw
  obtain ⟨bytes, hbytes, rfl⟩ := map_eq_ok (mapError_eq_ok.1 hread)
  obtain ⟨l, hf⟩ := Disk.hasFile_of_read hbytes
  obtain ⟨_, w₁, hmade, hw⟩ := Action.bind_eq_ok_iff.1 hw
  obtain ⟨_, w₂, hwritten, hw⟩ := Action.bind_eq_ok_iff.1 hw
  obtain ⟨_, w₃, hemit, hw⟩ := Action.bind_eq_ok_iff.1 hw
  obtain ⟨_, w₄, htell, hw⟩ := Action.bind_eq_ok_iff.1 hw
  obtain ⟨rfl, rfl⟩ := Action.pure_eq_ok_iff.1 hw
  obtain ⟨d₁, hd₁, rfl⟩ := Job.onDisk_eq_ok.1 hmade
  obtain ⟨d₂, hd₂, rfl⟩ := Job.onDisk_eq_ok.1 hwritten
  cases hemit
  cases htell
  refine ⟨l, bytes, d₁, d₂, hf, rfl, hd₁, ?_, rfl⟩
  rw [write_eq] at hd₂
  split at hd₂
  · rename_i d' hd'
    cases hd₂
    exact hd'
  · cases hd₂

/-- **A page that is written** was read from a file, and its place is that of its names. -/
theorem writePage_eq_ok (h : Apart d docs output) (hp : Progress d convert output old es w) {source : Path}
    {relative slug : Text} {label : Option Text} {names : List Text} (hn : ∀ name ∈ names, IsEntryName name)
    (ht : targetPath output relative (Path.baseName source.name) = output.descend names)
    (hw : writePage convert output source relative label w = (.ok slug, w')) :
    ∃ l bytes, w.disk.find source = .ok ⟨l, some (.file bytes)⟩ ∧
      slug = Nav.slug relative (Path.baseName source.name) ∧
      Progress d convert output old (es ++ [⟨output.descend names, documentText bytes,
        Path.baseName source.name, isIndexName (Path.baseName source.name), label⟩]) w' := by
  obtain ⟨l, bytes, d₁, d₂, hf, hslug, hmade, hfile, hw'⟩ := writePage_steps hw
  rw [ht] at hmade hfile hw'
  have hproper : (output.descend names).Proper := proper_descend h.proper hn
  have hgrows : w.disk.Grows .none d₁ := by
    have hk := makeDirectories_grows true hproper.parent w.disk
    rwa [hmade] at hk
  exact ⟨l, bytes, hf, hslug, hp.page h hn hgrows hfile hw'⟩

/-! ## Pages of a folder -/

/-- **What the addresses yielded for one entry of a folder are.** -/
structure Part (d : Disk) (l : Location) (P : Address → Prop) (dirs : List Text) (s : Sibling)
    (as : List Address) : Prop where
  mem : ∀ a, a ∈ as ↔ P a ∧ dirs ++ [s.name] <+: a
  order : as.Pairwise (Precedes d l)
  rank : as ≠ [] → s.rank = rankAt d (l ++ dirs) s.name

/-- **An entry that leads to no document** yields nothing. -/
theorem Part.none {d : Disk} {l : Location} {P : Address → Prop} {dirs : List Text} {s : Sibling}
    (h : ∀ a, P a → ¬ dirs ++ [s.name] <+: a) : Part d l P dirs s [] :=
  ⟨fun a => by simpa using h a, .nil, fun h => absurd rfl h⟩

/-- **A page of a folder that is written** is the document at its address. -/
theorem page_of_folder (h : Apart d docs output) {d₀ : Disk} (hg₀ : d.Grows (.below (d.settle output)) d₀)
    (hp : Progress d convert output old es w) {dirs : List Text}
    (hdirs : ∀ name ∈ dirs, IsEntryName name ∧ isHidden name = false) {entries : List Sibling}
    (hl : Lists d₀ (docs.descend dirs) (d.settle docs ++ dirs) entries) {s : Sibling} (hs : s ∈ entries)
    (hhidden : isHidden s.name = false) (hpage : isPageName s.name = true)
    {slug : Text} {label : Option Text} (hlabel : label = some (groupLabelOf d (d.settle docs) (dirs ++ [s.name])))
    (hw : writePage convert output s.path (Text.join ['/'] dirs) label w = (.ok slug, w')) :
    IsDocument d (d.settle docs) (dirs ++ [s.name]) ∧
      Part d (d.settle docs) (IsDocument d (d.settle docs)) dirs s [dirs ++ [s.name]] ∧
      slug = Nav.slug (Text.join ['/'] dirs) (Path.baseName s.name) ∧
      Progress d convert output old (es ++ [emissionAt d (d.settle docs) output (dirs ++ [s.name])]) w' := by
  have hname : IsEntryName s.name := hl.entryName (hg₀.sound h.sound) hs
  have hpath : s.path = docs.descend (dirs ++ [s.name]) := by rw [(hl.fits s hs).path, Path.child_descend]
  have hnames : ∀ name ∈ dirs ++ [s.name], IsEntryName name :=
    List.forall_mem_append.2 ⟨fun name hn => (hdirs name hn).1, List.forall_mem_singleton.2 hname⟩
  have hbase : s.path.name = s.name := by rw [(hl.fits s hs).path, Path.name_child]
  have htarget : ∀ name ∈ Address.target (dirs ++ [s.name]), IsEntryName name := by
    refine Address.target_entryNames ?_ ?_
    · rw [Address.folders_append]
      exact fun name hn => (hdirs name hn).1
    · rw [Address.file_append]
      exact hname.1.2
  obtain ⟨m, bytes, hf, rfl, hprogress⟩ := writePage_eq_ok h hp htarget
    (by rw [hbase]; exact targetPath_join output (fun name hn => (hdirs name hn).1) hname.1.2) hw
  -- The document is read where its address says, and has been there from the start.
  have hsound := hp.grows.sound h.sound
  have hm : m = d.settle docs ++ (dirs ++ [s.name]) :=
    Disk.location_of_find_descend hsound hp.grows.links h.docs_free (not_mem_up hnames) (hpath ▸ hf)
  have hat := ((Disk.walks_of_find hf).2.entry_of_ne_directory (by simp)).2
  simp only [hm] at hat
  have hfile := (h.file_iff hp.grows (List.prefix_append _ _)).1 hat
  have hdoc : IsDocument d (d.settle docs) (dirs ++ [s.name]) := by
    refine ⟨⟨bytes, hfile⟩, ?_, by rwa [Address.file_append]⟩
    exact List.forall_mem_append.2 ⟨fun name hn => (hdirs name hn).2, List.forall_mem_singleton.2 hhidden⟩
  refine ⟨hdoc, ⟨fun a => ?_, List.pairwise_singleton _ _, fun _ => ?_⟩, by rw [hbase], ?_⟩
  · rw [List.mem_singleton]
    constructor
    · rintro rfl
      exact ⟨hdoc, List.prefix_refl _⟩
    · rintro ⟨ha, hunder⟩
      exact h.document_alone hdoc ha hunder
  · exact h.rank_eq hg₀ hl hs (Disk.walks_of_find hf).1 hdoc (List.prefix_refl _)
  · have hrequest : requestAt d (d.settle docs) (dirs ++ [s.name]) = ⟨documentText bytes,
        Path.baseName s.name, isIndexName (Path.baseName s.name), label⟩ := by
      rw [requestAt, Address.file_append, octetsAt, hfile, hlabel]
    rw [hbase] at hprogress
    rw [emissionAt, hrequest]
    exact hprogress

end DocFerry.Site
