import DocFerry.Proofs.Site.Outline
/-!
# Folders below which nothing is written

Where nothing is written at or below a folder, its entries are the same in every world of a walk, and so is what remains
of them (`Mirrors.still`).

Main statement: the group that a walk leaves mirrors its folder, and so do the groups nested in it, none of which is
without a slug; and it is empty exactly if no page is reached from the folder (`walk_mirrors`).
-/
namespace DocFerry.Site

open Files Nav

section SameBelow

variable {p : Path} {l : Location} {d d' : Disk} {names : List Text}

theorem descend_descend (p : Path) (a b : List Text) : (p.descend a).descend b = p.descend (a ++ b) := by
  simp [Path.descend]

theorem up_not_mem_concat {name : Text} (hup : Path.up ∉ names) (hname : name ≠ Path.up) : Path.up ∉ names ++ [name] := by
  simpa [hup] using Ne.symm hname

theorem read_category_same (h : d.SameBelow p l d') (hup : Path.up ∉ names) :
    Category.read d' (p.descend names) = Category.read d (p.descend names) := by
  rw [Category.read, Category.read, Path.child_descend, h.seekFile (up_not_mem_concat hup categoryFile_plain.2)]

theorem groupLabel_same (h : d.SameBelow p l d') (hup : Path.up ∉ names) :
    Category.groupLabel d' (p.descend names) = Category.groupLabel d (p.descend names) := by
  rw [Category.groupLabel, Category.groupLabel, read_category_same h hup]

theorem siblingAt_same (h : d.SameBelow p l d') (hup : Path.up ∉ names) :
    siblingAt d' (p.descend names) = siblingAt d (p.descend names) := by
  have hrank : ∀ isDirectory, rankOf d' (p.descend names) isDirectory = rankOf d (p.descend names) isDirectory := by
    intro isDirectory
    rw [rankOf, rankOf, read_category_same h hup, documentRank, documentRank, readDocument, readDocument, h.read hup]
  rw [siblingAt, siblingAt, h.seekDirectory hup]
  simp only [hrank]

theorem rankAll_same (h : d.SameBelow p l d') (hup : Path.up ∉ names) : ∀ {found : List Text}, Path.up ∉ found →
    rankAll d' (found.map (p.descend names).child) = rankAll d (found.map (p.descend names).child)
  | [], _ => rfl
  | name :: found, hfound => by
    obtain ⟨hname, hrest⟩ := not_or.1 (List.mem_cons.not.1 hfound)
    rw [List.map_cons, rankAll, rankAll, Path.child_descend, siblingAt_same h (up_not_mem_concat hup (Ne.symm hname)),
      rankAll_same h hup hrest]

theorem siblings_same (h : d.SameBelow p l d') (hup : Path.up ∉ names) {entries : List Sibling}
    (hentries : siblings d' (p.descend names) = .ok entries) : siblings d (p.descend names) = .ok entries := by
  unfold siblings at hentries
  split at hentries
  · rename_i found hlist
    obtain ⟨names', hlist', hperm⟩ := h.list hup hlist
    obtain ⟨m, _, hfound⟩ := Disk.list_eq_ok hlist
    have hentry : Path.up ∉ found := not_mem_up fun name hn => h.sound'.entryName (hfound ▸ hn)
    have hnodup : ((found.map (p.descend names).child).map Path.name).Nodup := by
      rw [map_name_child, hfound]
      exact Disk.nodup_namesAt h.sound'.nodup m
    -- The names may come in another order, but the entries are ranked alike.
    rw [ranked, rankAll_same h hup hentry] at hentries
    obtain ⟨_, _, _, _, hsame⟩ := ranked_strictly hnodup hentries
    unfold siblings
    rw [hlist']
    exact hsame _ (hperm.symm.map _)
  · cases hentries

theorem reaches_same (h : d.SameBelow p l d') (hup : Path.up ∉ names) :
    Reaches d' (p.descend names) ↔ Reaches d (p.descend names) := by
  have hiff : ∀ more : List Text, (∀ name ∈ more, IsEntryName name ∧ isHidden name = false) →
      (d'.HasFile ((p.descend names).descend more) ↔ d.HasFile ((p.descend names).descend more)) := by
    intro more hmore
    rw [descend_descend]
    refine h.hasFile_iff fun hm => ?_
    rcases List.mem_append.1 hm with hm | hm
    · exact hup hm
    · exact (hmore _ hm).1.2 rfl
  constructor
  · rintro ⟨more, hpage, hmore, hfile⟩
    exact ⟨more, hpage, hmore, (hiff more hmore).1 hfile⟩
  · rintro ⟨more, hpage, hmore, hfile⟩
    exact ⟨more, hpage, hmore, (hiff more hmore).2 hfile⟩

end SameBelow

/-! ## Mirrors in one world -/

/-- An entry seen in another world. -/
def Stop.at (w : World) (v : Stop) : Stop := { v with world := w }

section Still

variable {Met : World → Prop} {p : Path} {l : Location} {w : World}

/-- **An entry below a path**, in a world that is met. -/
def Stop.Below (Met : World → Prop) (p : Path) (v : Stop) : Prop :=
  Met v.world ∧ ∃ names, Path.up ∉ names ∧ v.entry.path = p.descend names

theorem remaining_at (hmet : ∀ u, Met u → w.disk.SameBelow p l u.disk) : ∀ {seen : List Text} {stops : List Stop},
    (∀ v ∈ stops, v.Below Met p) → remaining seen (stops.map (Stop.at w)) = (remaining seen stops).map (Stop.at w)
  | _, [], _ => rfl
  | seen, v :: stops, h => by
    obtain ⟨⟨hv, names, hup, hpath⟩, hrest⟩ := List.forall_mem_cons.1 h
    have hstays : (v.at w).Stays ↔ v.Stays := by
      refine and_congr_right fun _ => or_congr_right (and_congr_right fun _ => ?_)
      show Reaches w.disk v.entry.path ↔ _
      rw [hpath, reaches_same (hmet _ hv) hup]
    have ih : ∀ seen, remaining seen (stops.map (Stop.at w)) = (remaining seen stops).map (Stop.at w) := fun _ =>
      remaining_at hmet hrest
    rw [List.map_cons]
    by_cases hs : v.Stays
    · by_cases hpage : v.entry.isPage = true
      · by_cases hseen : v.baseName ∈ seen
        · rw [remaining_cons_of_seen hs hpage hseen, remaining_cons_of_seen (hstays.2 hs) hpage hseen, ih]
        · rw [remaining_cons_of_new hs hpage hseen, remaining_cons_of_new (hstays.2 hs) hpage hseen, List.map_cons]
          exact congrArg _ (ih _)
      · have hdir : v.entry.isDirectory = true := (hs.2.resolve_left hpage).1
        rw [remaining_cons_of_directory hs hdir, remaining_cons_of_directory (hstays.2 hs) hdir, List.map_cons, ih]
    · rw [remaining_cons_of_not hs, remaining_cons_of_not (hstays.not.2 hs), ih]

theorem below_of_siblings (hmet : ∀ u, Met u → w.disk.SameBelow p l u.disk) {v : Stop} (hv : v.Below Met p)
    {stops : List Stop} (hlist : siblings v.world.disk v.entry.path = .ok (stops.map Stop.entry))
    (hstops : ∀ u ∈ stops, Met u.world) : ∀ u ∈ stops, u.Below Met p := by
  obtain ⟨hv, names, hup, hpath⟩ := hv
  intro u hu
  obtain ⟨hchild, hname⟩ := path_of_siblings (hmet _ hv).sound' hlist (List.mem_map_of_mem hu)
  refine ⟨hstops u hu, names ++ [u.entry.name], up_not_mem_concat hup hname.2, ?_⟩
  rw [hchild, hpath, Path.child_descend]

mutual

theorem ItemMirrors.still (hmet : ∀ u, Met u → w.disk.SameBelow p l u.disk) : ∀ {item : Item} {relative : Text} {v : Stop},
    v.Below Met p → ItemMirrors Met relative v item → ItemMirrors (· = w) relative (v.at w) item
  | .page _, _, _, _, hm => by rwa [ItemMirrors] at hm ⊢
  | .group _ _ items, _, v, hv, hm => by
    rw [ItemMirrors] at hm ⊢
    obtain ⟨hdir, hlabel, hexpanded, stops, hlist, hstops, hitems⟩ := hm
    have hbelow := below_of_siblings hmet hv hlist hstops
    obtain ⟨hv, names, hup, hpath⟩ := hv
    refine ⟨hdir, ?_, hexpanded, stops.map (Stop.at w), ?_, by simp [Stop.at], ?_⟩
    · show Category.groupLabel w.disk v.entry.path = _
      rw [hpath] at hlabel ⊢
      rw [← hlabel, groupLabel_same (hmet _ hv) hup]
    · show siblings w.disk v.entry.path = _
      rw [hpath] at hlist ⊢
      rw [siblings_same (hmet _ hv) hup hlist, List.map_map]
      rfl
    · rw [remaining_at hmet hbelow]
      exact ItemsMirror.still hmet (fun u hu => hbelow u (mem_of_mem_remaining hu)) hitems

theorem ItemsMirror.still (hmet : ∀ u, Met u → w.disk.SameBelow p l u.disk) : ∀ {items : List Item} {relative : Text}
    {stops : List Stop}, (∀ v ∈ stops, v.Below Met p) → ItemsMirror Met relative stops items →
    ItemsMirror (· = w) relative (stops.map (Stop.at w)) items
  | [], _, [], _, _ => trivial
  | [], _, _ :: _, _, hm => hm.elim
  | _ :: _, _, [], _, hm => hm.elim
  | _ :: _, _, v :: _, hbelow, ⟨hitem, hitems⟩ =>
    ⟨hitem.still hmet (hbelow v List.mem_cons_self),
      hitems.still hmet fun u hu => hbelow u (List.mem_cons_of_mem _ hu)⟩

end

/-- **A group that mirrors a folder** mirrors it as it is in one world, where that is the same below the folder. -/
theorem Mirrors.still (hmet : ∀ u, Met u → w.disk.SameBelow p l u.disk) (hw : Met w) {relative : Text} {g : Nav.Group}
    (h : Mirrors Met w p relative g) : Mirrors (· = w) w p relative g := by
  obtain ⟨hlabel, hexpanded, stops, hlist, hstops, hitems⟩ := h
  have hbelow := below_of_siblings hmet (v := ⟨⟨[], p, true, defaultRank⟩, w⟩)
    ⟨hw, [], by simp, (Path.descend_nil p).symm⟩ hlist hstops
  refine ⟨hlabel, hexpanded, stops.map (Stop.at w), by rw [List.map_map]; exact hlist, by simp [Stop.at], ?_⟩
  rw [remaining_at hmet hbelow]
  exact hitems.still hmet fun u hu => hbelow u (mem_of_mem_remaining hu)

end Still

/-- **Nothing is written at or below a location** on the way from one world to another. -/
structure Spares (l : Location) (w w' : World) : Prop where
  same : ∀ m, l <+: m → w'.disk.locate? m = w.disk.locate? m
  elsewhere : ∀ es, w'.written = w.written ++ es → ∀ e ∈ es, ∀ place, w'.disk.find e.target = .ok place →
    ¬ l <+: place.location

theorem Spares.sameBelow {l : Location} {w w' u : World} (h : Spares l w w') (hs : w.disk.Sound) {p : Path}
    (hf : w.disk.find p = .ok ⟨l, some .directory⟩) (hfree : w.disk.LinkFree l) (hu : Between w w' u) :
    w.disk.SameBelow p l u.disk := by
  obtain ⟨⟨es, hes, hwrote⟩, fs, hfs, hwrote'⟩ := hu
  have hg := hwrote hs
  have hg' := hwrote' (hg.sound hs)
  refine ⟨hs, hg.sound hs, hf, ?_, hfree, fun m hm => ?_⟩
  · obtain ⟨e, hfound, hkind⟩ := hg.find hf
    rw [hfound, hkind.directory_iff.1 rfl]
  · have hout : ¬ ∃ q bytes, TargetOf es u.disk q ∧ u.disk.find q = .ok ⟨m, some (.file bytes)⟩ := by
      rintro ⟨q, bytes, ⟨e, he, rfl⟩, hfile⟩
      obtain ⟨e', hfound, _⟩ := hg'.find hfile
      exact h.elsewhere (es ++ fs) (by rw [hfs, hes, List.append_assoc]) e (List.mem_append_left _ he) _ hfound hm
    rcases hg.outside m hout with hsame | ⟨hnone, hdir⟩
    · exact hsame
    · -- A directory that was made would still be there in the end.
      obtain ⟨e, he, _⟩ := hg'.kept m _ hdir
      rw [h.same m hm, hnone] at he
      cases he

variable {convert : Converter} {output : Path}

/-- **The group that a walk leaves mirrors its folder.**  Its items are the entries that remain, in their order, each
page by its slug and each folder by its group, seen as the walk comes to them; and as they were at first, if nothing is
written below the folder.  No group nested in it is without slugs, and it is empty exactly if no page is reached from
the folder. -/
theorem walk_mirrors (hp : output.Proper) {directory : Path} {relative : Text} {g : Nav.Group} {w w' : World}
    (hs : w.disk.Sound) (h : walk convert output directory relative w = (.ok g, w')) :
    Mirrors (Between w w') w directory relative g ∧
      (∀ l, w.disk.find directory = .ok ⟨l, some .directory⟩ → w.disk.LinkFree l → Spares l w w' →
        Mirrors (· = w) w directory relative g) ∧
      (∀ child, Nested child g.items → child.slugs ≠ []) ∧ (g.isEmpty = true ↔ ¬ Reaches w.disk directory) := by
  have hwalk := walk_eq_ok h
  have hmirrors := walkWithin_mirrors hp _ hs hwalk
  refine ⟨hmirrors, fun l hf hfree hspares => ?_, walkWithin_nested _ hwalk, ?_⟩
  · exact hmirrors.still (fun u hu => hspares.sameBelow hs hf hfree hu) ⟨.refl w, walkWithin_writes hp _ hwalk⟩
  · rw [← walkWithin_items_ne_nil_iff hp hs hwalk, not_not]
    exact List.isEmpty_iff

/-- **A site with a branch that leads to no page**, with two pages of one base name and with a folder of pages. -/
def branchSite : Disk where
  entries := [(["docs"], .directory), (["docs", "b.md"], .file [0x61]), (["docs", "b.mdx"], .file [0x62]),
    (["docs", "guide"], .directory), (["docs", "guide", "index.md"], .file [0x63]), (["docs", "hollow"], .directory),
    (["docs", "hollow", "x.txt"], .file [0x64])].map fun e => (e.1.map String.toList, e.2)

/-- **Nothing is written below the pages of this site.** -/
theorem branchSite_spares : Spares (Path.names (.word "docs")) { disk := branchSite }
    (walk (·.raw) (.word "out") (.word "docs") [] { disk := branchSite }).2 := by
  generalize hw' : (walk (·.raw) (.word "out") (.word "docs") [] { disk := branchSite }).2 = w'
  have hentries : w'.disk.entries = branchSite.entries ++ [(["out"], .directory), (["out", "b.mdx"], .file [0x62]),
      (["out", "guide"], .directory), (["out", "guide", "index.mdx"], .file [0x63])].map
        fun e => (e.1.map String.toList, e.2) := by
    rw [← hw']
    decide +kernel
  have helsewhere : w'.written.all (fun e => (w'.disk.find e.target).toOption.all fun place =>
      !(Path.names (.word "docs")).isPrefixOf place.location) = true := by
    rw [← hw']
    decide +kernel
  refine ⟨?_, fun es hes e he place hplace hm => ?_⟩
  · rintro m ⟨rest, rfl⟩
    have hnames : Path.names (.word "docs") = ["docs".toList] := by decide
    rw [hnames, List.singleton_append, Disk.locate?, Disk.locate?, hentries]
    simp [branchSite, Table.get?]
  · rw [show w'.written = es from hes, List.all_eq_true] at helsewhere
    have hfound := helsewhere e he
    rw [hplace] at hfound
    simp [Except.toOption, List.isPrefixOf_iff_prefix.2 hm] at hfound

theorem walk_mirrors_branchSite : ∃ g w',
    walk (·.raw) (.word "out") (.word "docs") [] { disk := branchSite } = (.ok g, w') ∧
      Mirrors (· = { disk := branchSite }) { disk := branchSite } (.word "docs") [] g ∧
      g.slugs = ["b", "guide/index"].map String.toList ∧ Reaches branchSite (.word "docs") := by
  obtain ⟨g, w', hrun⟩ := Action.exists_eq_ok (show (walk (·.raw) (.word "out") (.word "docs") []
    { disk := branchSite }).1.isOk = true by decide +kernel)
  have hslugs : (walk (·.raw) (.word "out") (.word "docs") [] { disk := branchSite }).1.toOption.map Group.slugs =
      some (["b", "guide/index"].map String.toList) := by decide +kernel
  rw [hrun] at hslugs
  have hslugs : g.slugs = ["b", "guide/index"].map String.toList := Option.some.inj hslugs
  have htree : branchSite.IsTree := ⟨by decide, by decide, by decide, by decide⟩
  have hspares := branchSite_spares
  rw [hrun] at hspares
  obtain ⟨_, hstill, _, hempty⟩ := walk_mirrors (Path.ofText_proper _) htree.sound hrun
  refine ⟨g, w', hrun, hstill _ (by rfl) (Disk.linkFree_of_entries (by simp [branchSite]) _) hspares, hslugs, ?_⟩
  by_contra hr
  rw [Group.slugs, List.isEmpty_iff.1 (hempty.2 hr)] at hslugs
  cases hslugs

end DocFerry.Site
