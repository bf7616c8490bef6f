import Mathlib.Data.List.Nodup
import Mathlib.Data.List.Perm.Basic
import DocFerry.Proofs.Files.Alike
import DocFerry.Proofs.Site.Gathering
/-!
# Sites with edited documents

Two disks can hold the same site but for the text of some documents that keep their ranks (`SameButEdited`).  While a
run on each of them goes on, the two stay alike but for those documents and the pages made from them (`Beside`).  Then
every folder has the same metadata on both (`category_alike`) and its entries are listed in the same order
(`siblings_alike`).
-/
namespace DocFerry.Site

open Files Nav
open DocFerry.Action (ResultsAlike)
open Text.Utf8 (Octets)

/-- **The rank that a document's metadata gives**, as ranks are compared; none if it gives none. -/
def rankKey? (bytes : Octets) : Option Int :=
  ((Table.get? "sidebar_position".toList (Page.split (documentText bytes)).1).bind Page.rank?).map Binary64.key

theorem key_rankInText {b b' : Octets} (h : rankKey? b = rankKey? b') :
    (rankInText (documentText b)).key = (rankInText (documentText b')).key := by
  have hkey : ∀ b, (rankInText (documentText b)).key = (rankKey? b).getD defaultRank.key := by
    intro b
    rw [rankInText, rankKey?]
    cases (Table.get? "sidebar_position".toList (Page.split (documentText b)).1).bind Page.rank? <;> rfl
  rw [hkey, hkey, h]

/-- **A document that is edited** from one disk to another, and keeps its rank. -/
structure Edited (d d' : Disk) (docs : Location) (a : Address) (b b' : Octets) : Prop where
  page : isPageName a.file = true
  before : d.locate? (docs ++ a) = some (.file b)
  after : d'.locate? (docs ++ a) = some (.file b')
  rank : rankKey? b = rankKey? b'

/-- **Two disks that are the same but for edited documents.** -/
structure SameButEdited (docs : Location) (d d' : Disk) : Prop where
  here : d'.here = d.here
  same : ∀ l, Table.get? l d'.entries = Table.get? l d.entries ∨ ∃ a b b', l = docs ++ a ∧ Edited d d' docs a b b'

theorem append_ne_nil_of_isPageName {area : Location} {a : Address} (h : isPageName a.file = true) :
    area ++ a ≠ [] := by
  intro hl
  rw [(List.append_eq_nil_iff.1 hl).2] at h
  exact absurd h (by decide)

theorem SameButEdited.put {d : Disk} {docs : Location} {a : Address} {b b' : Octets} (hp : isPageName a.file = true)
    (hb : d.locate? (docs ++ a) = some (.file b)) (hr : rankKey? b = rankKey? b') :
    SameButEdited docs d (d.put (docs ++ a) (.file b')) := by
  have hl : docs ++ a ≠ [] := append_ne_nil_of_isPageName hp
  obtain ⟨hentries, hhere⟩ := Disk.entries_put d hl (.file b')
  refine ⟨hhere, fun l => ?_⟩
  by_cases he : l = docs ++ a
  · exact .inr ⟨a, b, b', he, hp, hb, Disk.locate?_put_self d (.file b') hl, hr⟩
  · rw [hentries, Table.get?_set_ne _ _ he]
    exact .inl rfl

/-- **A source document that has changed.** -/
def Changed (d d' : Disk) (docs : Location) (a : Address) : Prop :=
  IsSource d docs a ∧ d'.locate? (docs ++ a) ≠ d.locate? (docs ++ a)

/-- **Where two runs may differ**: in the edited documents, and in the pages made from those that have changed. -/
def Edits (d d' : Disk) (docs output : Path) : Difference := fun l b b' =>
  (∃ a, l = d.settle docs ++ a ∧ Edited d d' (d.settle docs) a b b') ∨
    ∃ a, Changed d d' (d.settle docs) a ∧ l = d.settle output ++ a.target

/-- **Two worlds on the way of two runs** that began with two sites. -/
structure Beside (d d' : Disk) (docs output : Path) (w w' : World) : Prop where
  alike : w.disk.AlikeBut (Edits d d' docs output) w'.disk
  grows : d.Grows (.below (d.settle output)) w.disk
  targets : w'.written.map Emission.target = w.written.map Emission.target

variable {d d' : Disk} {docs output : Path} {w w' : World} {dirs : List Text}

theorem Edits.at_docs (h : Apart d docs output) {a : Address} {b b' : Octets}
    (hv : Edits d d' docs output (d.settle docs ++ a) b b') : Edited d d' (d.settle docs) a b b' := by
  rcases hv with ⟨a', hl, he⟩ | ⟨a', _, hl⟩
  · rwa [List.append_cancel_left hl]
  · refine absurd ?_ (h.not_below (List.prefix_append (d.settle docs) a))
    rw [Area.below, hl]
    exact List.prefix_append _ _

namespace Beside

variable (h : Apart d docs output) (hb : Beside d d' docs output w w')

include h hb

theorem location {a : Address} (hup : Path.up ∉ a) {place : Place} (hf : w.disk.find (docs.descend a) = .ok place) :
    place.location = d.settle docs ++ a :=
  Disk.location_of_find_descend (hb.grows.sound h.sound) hb.grows.links h.docs_free hup hf

theorem category_alike (hup : Path.up ∉ dirs) :
    Category.read w.disk (docs.descend dirs) = Category.read w'.disk (docs.descend dirs) := by
  have hfile : Path.up ∉ dirs ++ [categoryFile] := by simpa [hup] using by decide
  rw [Category.read, Category.read, Disk.seekFile, Disk.seekFile]
  rcases hb.alike.seek ((docs.descend dirs).child categoryFile) with he | ⟨l, b, b', hf, _, _, hv⟩
  · rw [he]
  · -- A file that differs among the documents is a page, and that of a folder's metadata is none.
    rw [Path.child_descend] at hf
    have hl : l = d.settle docs ++ (dirs ++ [categoryFile]) := location h hb hfile hf
    have hpage := (Edits.at_docs h (hl ▸ hv)).page
    rw [Address.file_append] at hpage
    exact absurd hpage (by decide)

theorem groupLabel_alike (hup : Path.up ∉ dirs) :
    Category.groupLabel w.disk (docs.descend dirs) = Category.groupLabel w'.disk (docs.descend dirs) := by
  rw [Category.groupLabel, Category.groupLabel, category_alike h hb hup]

/-- **A document is read alike**, or it has been edited. -/
theorem document_alike {a : Address} (hup : Path.up ∉ a) :
    readDocument w.disk (docs.descend a) = readDocument w'.disk (docs.descend a) ∨
      ∃ b b', Edited d d' (d.settle docs) a b b' ∧ readDocument w.disk (docs.descend a) = .ok (documentText b) ∧
        readDocument w'.disk (docs.descend a) = .ok (documentText b') := by
  rw [readDocument, readDocument]
  rcases hb.alike.read (docs.descend a) with he | ⟨l, b, b', hf, hr, hr', hv⟩
  · rw [he]
    exact .inl rfl
  · have hl : l = d.settle docs ++ a := location h hb hup hf
    rw [hr, hr']
    exact .inr ⟨b, b', Edits.at_docs h (hl ▸ hv), rfl, rfl⟩

/-! ## Entries of a folder -/

theorem rankOf_alike {a : Address} (hup : Path.up ∉ a) (isDirectory : Bool) :
    ResultsAlike (fun rank rank' => rank'.key = rank.key) (rankOf w.disk (docs.descend a) isDirectory)
      (rankOf w'.disk (docs.descend a) isDirectory) := by
  rw [rankOf, rankOf]
  split
  · exact .ok rfl
  · split
    · rw [category_alike h hb hup]
      exact .refl _ fun _ => rfl
    · split
      · rcases document_alike h hb hup with he | ⟨b, b', hedited, hr, hr'⟩
        · rw [documentRank, documentRank, he]
          exact .refl _ fun _ => rfl
        · rw [documentRank, documentRank, hr, hr']
          exact .ok (key_rankInText hedited.rank).symm
      · exact .ok rfl

end Beside

/-- **What an entry is shown by**: all but the sign of a rank that is zero. -/
def Sibling.face (s : Sibling) : Text × Path × Bool × Int := (s.name, s.path, s.isDirectory, s.rank.key)

theorem Beside.siblingAt_alike (h : Apart d docs output) (hb : Beside d d' docs output w w') {a : Address}
    (hup : Path.up ∉ a) :
    ResultsAlike (fun s t => t.face = s.face) (siblingAt w.disk (docs.descend a))
      (siblingAt w'.disk (docs.descend a)) := by
  rw [siblingAt, siblingAt]
  rw [hb.alike.seekDirectory]
  refine ResultsAlike.bind (.refl (Q := Eq) _ fun _ => rfl) ?_
  rintro isDirectory _ rfl
  refine (hb.rankOf_alike h hup isDirectory).bind fun rank rank' hkey => .ok ?_
  rw [Sibling.face, Sibling.face, hkey]

/-- **Entries of the documents are ranked alike**, one after another. -/
theorem Beside.rankAll_alike (h : Apart d docs output) (hb : Beside d d' docs output w w') : ∀ {paths : List Path},
    (∀ p ∈ paths, ∃ a, Path.up ∉ a ∧ p = docs.descend a) →
    ResultsAlike (fun raw raw' => raw'.map Sibling.face = raw.map Sibling.face) (rankAll w.disk paths)
      (rankAll w'.disk paths)
  | [], _ => .ok rfl
  | p :: paths, hp => by
    obtain ⟨a, hup, rfl⟩ := hp p List.mem_cons_self
    rw [rankAll, rankAll]
    refine (hb.siblingAt_alike h hup).bind fun s t hface => ?_
    refine (hb.rankAll_alike h fun q hq => hp q (List.mem_cons_of_mem _ hq)).bind fun raw raw' hraw => .ok ?_
    rw [List.map_cons, List.map_cons, hface, hraw]

theorem rankAll_eq_ok_iff {e : Disk} : ∀ {paths : List Path} {entries : List Sibling},
    rankAll e paths = .ok entries ↔ List.Forall₂ (fun p s => siblingAt e p = .ok s) paths entries
  | [], entries => by
    rw [rankAll, List.forall₂_nil_left_iff]
    exact ⟨fun h => (Except.ok.inj h).symm, fun h => by rw [h]⟩
  | p :: paths, entries => by
    constructor
    · intro h
      obtain ⟨s, hs, h⟩ := bind_eq_ok h
      obtain ⟨more, hmore, h⟩ := bind_eq_ok h
      cases h
      exact .cons hs (rankAll_eq_ok_iff.1 hmore)
    · rintro (_ | ⟨hs, hmore⟩)
      rw [rankAll, hs]
      show (rankAll e paths >>= _) = _
      rw [rankAll_eq_ok_iff.2 hmore]
      rfl

/-- **The same entries are ranked** in whichever order they are. -/
theorem rankAll_perm {e : Disk} {paths paths' : List Path} (hperm : paths.Perm paths') :
    ResultsAlike (fun raw raw' => raw'.Perm raw) (rankAll e paths) (rankAll e paths') := by
  have hmove : ∀ {paths paths' : List Path} {raw : List Sibling}, paths'.Perm paths → rankAll e paths = .ok raw →
      ∃ raw', rankAll e paths' = .ok raw' ∧ raw'.Perm raw := fun hperm hraw => by
    obtain ⟨raw', hraw', hp⟩ := List.perm_comp_forall₂ hperm (rankAll_eq_ok_iff.1 hraw)
    exact ⟨raw', rankAll_eq_ok_iff.2 hraw', hp⟩
  cases hraw : rankAll e paths with
  | ok raw =>
    obtain ⟨raw', hraw', hp⟩ := hmove hperm.symm hraw
    rw [hraw']
    exact .ok hp
  | error failure =>
    cases hraw' : rankAll e paths' with
    | error failure' => exact .error
    | ok raw' =>
      obtain ⟨raw, hr, _⟩ := hmove hperm hraw'
      rw [hraw] at hr
      cases hr

theorem textLe_antisymm : ∀ {s t : Text}, Sibling.textLe s t = true → Sibling.textLe t s = true → s = t
  | [], [], _, _ => rfl
  | [], _ :: _, _, h => by cases h
  | _ :: _, [], h, _ => by cases h
  | a :: s, b :: t, h, k => by
    simp only [Sibling.textLe, Bool.or_eq_true, Bool.and_eq_true, decide_eq_true_eq, beq_iff_eq] at h k
    rcases h with h | ⟨rfl, h⟩
    · rcases k with k | ⟨rfl, _⟩ <;> omega
    · rcases k with k | ⟨_, k⟩
      · omega
      · rw [textLe_antisymm h k]

/-- **Two entries that are each at or before the other** have the same name. -/
theorem Sibling.name_eq_of_le {s t : Sibling} (hst : s.le t = true) (hts : t.le s = true) : s.name = t.name := by
  simp only [le, Binary64.lt, Binary64.le, Bool.or_eq_true, Bool.and_eq_true, decide_eq_true_eq] at hst hts
  rcases hst with hlt | ⟨hle, hst⟩
  · rcases hts with hlt' | ⟨hle', _⟩ <;> omega
  · rcases hts with hlt' | ⟨_, hts⟩
    · omega
    · exact textLe_antisymm hst hts

/-- **The order of entries by what they are shown by.** -/
def faceLe (f g : Text × Path × Bool × Int) : Prop :=
  f.2.2.2 < g.2.2.2 ∨ f.2.2.2 ≤ g.2.2.2 ∧ Sibling.textLe f.1 g.1 = true

theorem faceLe_iff {s t : Sibling} : faceLe s.face t.face ↔ s.le t = true := by
  simp [faceLe, Sibling.face, Sibling.le, Binary64.lt, Binary64.le]

/-- **Sorting leads to the same order**, whichever order the entries had. -/
theorem sorted_faces {entries entries' : List Sibling}
    (hp : (entries'.map Sibling.face).Perm (entries.map Sibling.face)) (hn : (entries.map Sibling.name).Nodup) :
    (Sibling.sorted entries').map Sibling.face = (Sibling.sorted entries).map Sibling.face := by
  have hperm : ∀ l : List Sibling, ((Sibling.sorted l).map Sibling.face).Perm (l.map Sibling.face) := fun l =>
    (Sibling.sorted_perm l).map Sibling.face
  have hsorted : ∀ l : List Sibling, ((Sibling.sorted l).map Sibling.face).Pairwise faceLe := fun l =>
    List.pairwise_map.2 ((Sibling.sorted_pairwise l).imp faceLe_iff.2)
  refine List.Perm.eq_of_pairwise (fun f g hf hg hfg hgf => ?_) (hsorted entries') (hsorted entries)
    ((hperm entries').trans (hp.trans (hperm entries).symm))
  obtain ⟨s, hs, rfl⟩ := List.mem_map.1 (((hperm entries').trans hp).mem_iff.1 hf)
  obtain ⟨t, ht, rfl⟩ := List.mem_map.1 ((hperm entries).mem_iff.1 hg)
  have hname : s.name = t.name := Sibling.name_eq_of_le (faceLe_iff.1 hfg) (faceLe_iff.1 hgf)
  rw [List.inj_on_of_nodup_map hn hs ht hname]

/-- **The entries of a folder are listed alike**, in the same order. -/
theorem Beside.siblings_alike (h : Apart d docs output) (hb : Beside d d' docs output w w') (hup : Path.up ∉ dirs) :
    ResultsAlike (fun entries entries' => entries'.map Sibling.face = entries.map Sibling.face)
      (siblings w.disk (docs.descend dirs)) (siblings w'.disk (docs.descend dirs)) := by
  have hsound := hb.grows.sound h.sound
  rw [siblings, siblings]
  rcases hb.alike.list (docs.descend dirs) with ⟨problem, hl, hl'⟩ | ⟨l, names, names', hf, hl, hl', hnames, hperm⟩
  · rw [hl, hl']
    exact .error
  · rw [hl, hl']
    dsimp only
    have hentry : ∀ p ∈ names.map (docs.descend dirs).child, ∃ a, Path.up ∉ a ∧ p = docs.descend a := by
      intro p hp
      obtain ⟨name, hn, rfl⟩ := List.mem_map.1 hp
      have hname := (hsound.entryName (hnames ▸ hn)).2
      exact ⟨dirs ++ [name], by simp [hup, hname.symm], Path.child_descend _ _ _⟩
    have hdistinct : ∀ raw, rankAll w.disk (names.map (docs.descend dirs).child) = .ok raw →
        (raw.map Sibling.name).Nodup := by
      intro raw hraw
      have hall : ∀ name ∈ names, name ≠ Path.up ∧ ∃ e, w.disk.locate? (l ++ [name]) = some e := fun name hn =>
        ⟨(hsound.entryName (hnames ▸ hn)).2, Disk.mem_namesAt.1 (hnames ▸ hn)⟩
      have hl : l = d.settle docs ++ dirs := hb.location h hup hf
      have hfree : w.disk.LinkFree l := hl ▸ (hb.grows.links.linkFree h.docs_free).below (List.prefix_append _ _)
      rw [(rankAll_eq_ok hf hfree hall hraw).1, hnames]
      exact Disk.nodup_namesAt hsound.nodup l
    -- The two disks may list the names in different orders: the ranks are compared in one of them, then sorted.
    have hranked := hb.rankAll_alike h hentry
    have hmoved := rankAll_perm (e := w'.disk) (hperm.map (docs.descend dirs).child)
    rw [ranked, ranked]
    generalize rankAll w.disk _ = r at hranked hdistinct
    generalize rankAll w'.disk (names.map (docs.descend dirs).child) = r' at hranked hmoved
    generalize rankAll w'.disk (names'.map (docs.descend dirs).child) = r'' at hmoved
    cases hranked with
    | error =>
      cases hmoved
      exact .error
    | ok hfaces =>
      cases hmoved with
      | ok hp => exact .ok (sorted_faces (hfaces ▸ hp.map Sibling.face) (hdistinct _ rfl))

end DocFerry.Site
