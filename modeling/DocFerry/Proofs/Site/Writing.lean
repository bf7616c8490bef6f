import DocFerry.Proofs.Site.Gathering
/-!
# From world to world by pages

A folder is walked for any place of the new site, so its pages may be written anywhere.  Whichever place that is, a
walk that returns has only written pages (`walkWithin_writes`): each of them is noted, files have been written where
the noted paths lead, and nothing else has changed but for the directories made on the way.
-/
namespace DocFerry.Site

open Files Nav

theorem proper_joinText {p : Path} (h : p.Proper) (s : Text) : (p.joinText s).Proper := by
  unfold Path.joinText Path.join
  split
  · exact Path.ofText_proper s
  · exact h.descend (Path.ofText_proper s)

theorem targetPath_proper {output : Path} (h : output.Proper) (relative baseName : Text) :
    (targetPath output relative baseName).Proper := proper_joinText (proper_joinText h relative) _

/-- **Where the pages lead** that are noted. -/
def TargetOf (es : List Emission) (_ : Disk) (q : Path) : Prop := ∃ e ∈ es, q = e.target

/-- **From one world to another by pages that are written**: each of them is noted, and files are written where they
lead. -/
def Writes (w w' : World) : Prop :=
  ∃ es, w'.written = w.written ++ es ∧ w.disk.Wrote (TargetOf es) w'.disk

theorem Writes.of_same {w w' : World} (hd : w'.disk = w.disk) (hw : w'.written = w.written) : Writes w w' :=
  ⟨[], by simp [hw], hd ▸ .refl _ _⟩

theorem Writes.refl (w : World) : Writes w w := .of_same rfl rfl

theorem Writes.trans {w₁ w₂ w₃ : World} (h : Writes w₁ w₂) (k : Writes w₂ w₃) : Writes w₁ w₃ := by
  obtain ⟨es, hw, hd⟩ := h
  obtain ⟨fs, hw', hd'⟩ := k
  refine ⟨es ++ fs, by rw [hw', hw, List.append_assoc], .trans (Disk.stable_const _) _ w₂.disk _ ?_ ?_⟩
  · exact hd.mono fun q ⟨e, he, hq⟩ => ⟨e, List.mem_append_left _ he, hq⟩
  · exact hd'.mono fun q ⟨e, he, hq⟩ => ⟨e, List.mem_append_right _ he, hq⟩

theorem Writes.grows {w w' : World} (h : Writes w w') (hs : w.disk.Sound) : ∃ area, w.disk.Grows area w'.disk := by
  obtain ⟨es, _, hwrote⟩ := h
  exact ⟨_, hwrote hs⟩

theorem Writes.sound {w w' : World} (h : Writes w w') (hs : w.disk.Sound) : w'.disk.Sound := by
  obtain ⟨_, hg⟩ := h.grows hs
  exact hg.sound hs

theorem Writes.hasFile {w w' : World} (h : Writes w w') (hs : w.disk.Sound) {p : Path} (hf : w.disk.HasFile p) :
    w'.disk.HasFile p := by
  obtain ⟨_, hg⟩ := h.grows hs
  exact Disk.stable_hasFile hg hf

variable {convert : Converter} {output : Path} {w w' : World}

theorem writePage_writes (hp : output.Proper) {source : Path} {relative slug : Text} {label : Option Text}
    (h : writePage convert output source relative label w = (.ok slug, w')) : Writes w w' := by
  obtain ⟨_, bytes, d₁, d₂, _, _, hmade, hfile, hw'⟩ := writePage_steps h
  rw [hw']
  refine ⟨_, rfl, .trans (Disk.stable_const _) _ d₁ _ ?_ ?_⟩
  · have hg := makeDirectories_grows true (targetPath_proper hp relative (Path.baseName source.name)).parent w.disk
    rw [hmade] at hg
    exact Disk.Grows.wrote hg
  · have hwrote := write_wrote (targetPath_proper hp relative (Path.baseName source.name)) (Text.Utf8.encode (convert
      ⟨documentText bytes, Path.baseName source.name, isIndexName (Path.baseName source.name), label⟩)) d₁
    rw [write_eq, hfile] at hwrote
    exact hwrote.mono fun q hq => ⟨_, List.mem_singleton_self _, hq⟩

theorem addSibling_writes (hp : output.Proper) {below : Path → Text → Job Nav.Group} {relative label : Text}
    {g g' : Nav.Group} {s : Sibling}
    (hbelow : ∀ child, below s.path (joinPaths relative s.name) w = (.ok child, w') → Writes w w')
    (h : addSibling convert output below relative label g s w = (.ok g', w')) : Writes w w' := by
  rcases addSibling_eq_ok h with ⟨_, child, hchild, _⟩ | ⟨_, slug, u, hslug, _, hd, hw⟩ | ⟨_, _, _, rfl⟩
  · exact hbelow child hchild
  · exact (writePage_writes hp hslug).trans (.of_same hd hw)
  · exact .refl _

theorem foldlM_writes (hp : output.Proper) {below : Path → Text → Job Nav.Group} {relative label : Text}
    (hbelow : ∀ {directory : Path} {relative : Text} {child : Nav.Group} {w w' : World},
      below directory relative w = (.ok child, w') → Writes w w') {entries : List Sibling} {g g' : Nav.Group}
    (h : entries.foldlM (addSibling convert output below relative label) g w = (.ok g', w')) : Writes w w' :=
  Action.foldlM_keeps (J := fun _ u => Writes w u)
    (fun _ _ _ _ _ _ hstep hu => hu.trans (addSibling_writes hp (fun _ => hbelow) hstep)) h (.refl w)

/-- **A walk that returns has only written pages**, whatever place the folder has. -/
theorem walkWithin_writes (hp : output.Proper) : ∀ (depth : Nat) {directory : Path} {relative : Text} {g : Nav.Group}
    {w w' : World}, walkWithin convert output depth directory relative w = (.ok g, w') → Writes w w'
  | 0, _, _, _, _, _, h => by cases h
  | depth + 1, _, _, _, _, _, h => by
    obtain ⟨label, entries, _, _, hadded⟩ := walkWithin_eq_ok h
    exact foldlM_writes hp (walkWithin_writes hp depth) hadded

end DocFerry.Site
