import DocFerry.Proofs.Files.Alike
import DocFerry.Proofs.Site.Ranking
import DocFerry.Proofs.Text.Stored
/-!
# Ways to write a document

A text can be stored with or without a byte-order mark, and with its newlines written in three ways (`Encoding`).  A
document is read as the same text from all of them (`documentText_octets`), so it has the same rank among the entries of
its folder (`rank_of_siblings`).  Two disks that are alike but for how documents are stored stay so while a page is
written, and the page is the same (`writePage_agrees_alike`); hence the way in which a document is stored never matters
(`encoding_never_matters`).
-/
namespace DocFerry.Site

open Files Nav
open Text (Newline)
open Text.Utf8 (Octets encode byteOrderMark)

/-- **A way to write a document.** -/
structure Encoding where
  /-- A byte-order mark stands in front. -/
  marked : Bool
  newline : Newline
  deriving DecidableEq, Repr

def Encoding.octets (e : Encoding) (t : Text) : Octets :=
  (if e.marked then markOctets else []) ++ encode (e.newline.write t)

/-! ## The text of a document -/

section Text

variable {t : Text}

theorem head_write_ne_mark (n : Newline) (h : t.head? ≠ some byteOrderMark) :
    (n.write t).head? ≠ some byteOrderMark := by
  cases t with
  | nil => simp [Newline.write]
  | cons c t =>
    rw [Newline.write_cons]
    split
    · cases n <;> simp [Newline.text, byteOrderMark]
    · simpa using h

theorem encode_mark : encode [byteOrderMark] = markOctets := by decide

/-- **Octets of a text that begin with a mark** are those of a text that begins with one. -/
theorem head_of_markOctets {s : Text} (h : markOctets <+: encode s) : s.head? = some byteOrderMark := by
  obtain ⟨rest, hrest⟩ := h
  have hpieces : s.map some = some byteOrderMark :: Text.Utf8.pieces rest := by
    have hmark := Text.Utf8.piecesFrom_utf8EncodeChar byteOrderMark rest
    rw [← Text.Utf8.pieces_encode, ← hrest, ← encode_mark]
    simpa [encode, Text.Utf8.pieces] using hmark
  cases s with
  | nil => cases hpieces
  | cons c s => exact (List.cons.inj hpieces).1

/-- **Octets of a text that break off inside a mark** are none. -/
theorem encode_eq_nil_of_broken {s : Text} (h : encode s <+: markOctets) (hmark : ¬ markOctets <+: encode s) :
    encode s = [] := by
  have hbroken : ∀ k < 3, 0 < k → none ∈ Text.Utf8.pieces (markOctets.take k) := by decide
  have htake : encode s = markOctets.take (encode s).length := List.prefix_iff_eq_take.1 h
  by_contra hne
  have hlength : (encode s).length < 3 := by
    refine Nat.lt_of_le_of_ne h.length_le fun he => hmark ?_
    exact h.eq_of_length he ▸ List.prefix_rfl
  have hnone := hbroken _ hlength (List.length_pos_iff.2 hne)
  rw [← htake, Text.Utf8.pieces_encode] at hnone
  simp at hnone

theorem dropMark_encode {s : Text} (h : s.head? ≠ some byteOrderMark) : dropMark (encode s) = encode s := by
  have hmark : ¬ markOctets <+: encode s := fun hm => h (head_of_markOctets hm)
  rw [dropMark, if_neg (by simpa using hmark)]
  split
  · rename_i hp
    exact (encode_eq_nil_of_broken (by simpa using hp) hmark).symm
  · rfl

theorem dropMark_markOctets (bytes : Octets) : dropMark (markOctets ++ bytes) = bytes := by
  rw [dropMark, if_pos (by simp)]
  rfl

/-- **A document is read as the same text**, whichever way it is written. -/
theorem documentText_octets (e : Encoding) (hreturn : '\r' ∉ t) (hmark : t.head? ≠ some byteOrderMark) :
    documentText (e.octets t) = t := by
  have hdrop : dropMark (e.octets t) = encode (e.newline.write t) := by
    rw [Encoding.octets]
    cases e.marked with
    | false => exact dropMark_encode (head_write_ne_mark _ hmark)
    | true => exact dropMark_markOctets _
  rw [documentText, hdrop, Text.Utf8.decodeLossy_encode, Text.unifyNewlines_write _ hreturn]

end Text

/-! ## Its rank -/

section Rank

variable {d : Disk} {p : Path} {bytes : Octets}

/-- **The rank of a document** with a name and a text. -/
def rankShown (name t : Text) : Binary64 :=
  if name ∈ indexFiles then indexRank else if isPageName name then rankInText t else defaultRank

theorem siblingAt_of_read (h : d.read p = .ok bytes) :
    siblingAt d p = .ok ⟨p.name, p, false, rankShown p.name (documentText bytes)⟩ := by
  obtain ⟨l, hf⟩ := Disk.hasFile_of_read h
  have hfile : d.seekDirectory p = .ok false := by
    rw [Disk.seekDirectory, Disk.seek, hf]
    rfl
  have hrank : rankOf d p false = .ok (rankShown p.name (documentText bytes)) := by
    rw [rankOf, rankShown, documentRank, readDocument, h]
    split
    · rfl
    · rw [if_neg (by simp)]
      split <;> rfl
  rw [siblingAt, hfile]
  show (rankOf d p false >>= _) = _
  rw [hrank]
  rfl

/-- **A document among the entries of a folder** is ranked by its name and its text. -/
theorem rank_of_siblings {directory : Path} {entries : List Sibling} (he : siblings d directory = .ok entries)
    {s : Sibling} (hs : s ∈ entries) (h : d.read s.path = .ok bytes) :
    s.rank = rankShown s.path.name (documentText bytes) := by
  unfold siblings at he
  split at he
  · obtain ⟨raw, hraw, rfl⟩ := ranked_eq_ok he
    have hat := (paths_of_rankAll hraw).2.2 s ((Sibling.sorted_perm raw).mem_iff.1 hs)
    rw [siblingAt_of_read h] at hat
    exact (congrArg Sibling.rank (Except.ok.inj hat)).symm
  · cases he

/-- **A path leads to a document with a text**, which has the rank of its name and that text in every list of
entries. -/
structure LeadsTo (d : Disk) (p : Path) (t : Text) : Prop where
  text : readDocument d p = .ok t
  entry : siblingAt d p = .ok ⟨p.name, p, false, rankShown p.name t⟩
  rank : ∀ directory entries, siblings d directory = .ok entries → ∀ s ∈ entries, s.path = p →
    s.rank = rankShown p.name t

theorem leadsTo_of_read (h : d.read p = .ok bytes) : LeadsTo d p (documentText bytes) := by
  refine ⟨?_, siblingAt_of_read h, fun directory entries he s hs hp => ?_⟩
  · rw [readDocument, h]
    rfl
  · subst hp
    exact rank_of_siblings he hs h

end Rank

/-! ## The page made from it -/

/-- **Octets that are read as the same document.** -/
def ReadAlike : Difference := fun _ b b' => documentText b' = documentText b

/-- **Two worlds that are alike** but for how documents are written. -/
structure WorldsAlike (w w' : World) : Prop where
  disk : w.disk.AlikeBut ReadAlike w'.disk
  log : w'.log = w.log
  written : w'.written = w.written

section Page

variable {w w' : World}

theorem WorldsAlike.readDocument (h : WorldsAlike w w') (p : Path) :
    readDocument w.disk p = readDocument w'.disk p := by
  rw [Site.readDocument, Site.readDocument]
  rcases h.disk.read p with he | ⟨l, b, b', -, hr, hr', hv⟩
  · rw [he]
  · rw [hr, hr']
    exact congrArg Except.ok hv.symm

theorem WorldsAlike.onDisk {α : Type} (h : WorldsAlike w w') {c : Change α}
    (hc : Action.Alike (Disk.AlikeBut ReadAlike) Eq Eq (c w.disk) (c w'.disk)) :
    Action.Alike WorldsAlike Eq Eq (Job.onDisk c w) (Job.onDisk c w') := by
  rw [Job.onDisk, Job.onDisk]
  generalize c w.disk = r, c w'.disk = r' at hc
  cases hc with
  | ok ha he => exact .ok ⟨ha, h.log, h.written⟩ he
  | error ha he => exact .error ⟨ha, h.log, h.written⟩ (congrArg Failure.disk he)

/-- **A page that is written** leaves the worlds alike, with the same result or for the same reason. -/
theorem writePage_agrees_alike (convert : Converter) (output source : Path) (relative : Text) (label : Option Text) :
    Action.Agrees WorldsAlike Eq Eq (writePage convert output source relative label)
      (writePage convert output source relative label) := by
  unfold writePage
  refine Action.Agrees.bind (Q := Eq) (fun u u' hu => ?_) ?_
  · rw [Job.check, Job.check, hu.readDocument source]
    cases (readDocument u'.disk source).mapError Failure.disk with
    | ok raw => exact .ok hu rfl
    | error problem => exact .error hu rfl
  rintro raw _ rfl
  refine Action.Agrees.bind (Q := Eq) (fun u u' hu => hu.onDisk (makeDirectories_agrees _ _ _ _ _ hu.disk)) ?_
  rintro _ _ -
  refine Action.Agrees.bind (Q := Eq) (fun u u' hu => hu.onDisk (write_alike hu.disk fun _ _ => .inl rfl)) ?_
  rintro _ _ -
  refine Action.Agrees.bind (Q := Eq) (fun u u' hu => .ok ⟨hu.disk, hu.log, ?_⟩ rfl) ?_
  · exact congrArg (· ++ [_]) hu.written
  rintro _ _ -
  refine Action.Agrees.bind (Q := Eq) (fun u u' hu => .ok ⟨hu.disk, ?_, hu.written⟩ rfl) ?_
  · exact congrArg (· ++ [_]) hu.log
  rintro _ _ -
  exact Action.Agrees.pure rfl

/-- **The page that is made from a text.** -/
def pageOf (convert : Converter) (source : Path) (label : Option Text) (t : Text) : Text :=
  let baseName := Path.baseName source.name
  convert ⟨t, baseName, isIndexName baseName, label⟩

/-- **A page that is written is there**, made from the text of its source. -/
theorem read_of_writePage {convert : Converter} {output source : Path} {relative slug : Text} {label : Option Text}
    {bytes : Octets} (hread : w.disk.read source = .ok bytes)
    (h : writePage convert output source relative label w = (.ok slug, w')) :
    w'.disk.read (targetPath output relative (Path.baseName source.name)) =
      .ok (encode (pageOf convert source label (documentText bytes))) := by
  obtain ⟨l, bytes', d₁, d₂, hf, -, -, hfile, hw'⟩ := writePage_steps h
  have hbytes : bytes' = bytes := by
    rw [Disk.read, hf] at hread
    exact Except.ok.inj hread
  obtain ⟨place, -, hfound⟩ := Disk.find_of_withFile hfile
  rw [hw', Disk.read, hfound, hbytes]
  rfl

end Page

/-! ## All of them together -/

/-- **A world with other octets in one of its files.** -/
def World.holding (w : World) (l : Location) (bytes : Octets) : World := { w with disk := w.disk.put l (.file bytes) }

section Holding

variable {w : World} {p : Path} {l : Location} {old : Octets}

theorem read_holding (hf : w.disk.find p = .ok ⟨l, some (.file old)⟩) (bytes : Octets) :
    (w.holding l bytes).disk.read p = .ok bytes := by
  have hfile : w.disk.withFile p bytes = .ok (w.disk.put l (.file bytes)) := by rw [Disk.withFile, hf]
  obtain ⟨place, -, hfound⟩ := Disk.find_of_withFile hfile
  rw [World.holding, Disk.read, hfound]

theorem holding_alike (hn : (Table.keys w.disk.entries).Nodup) (l : Location) {bytes bytes' : Octets}
    (h : documentText bytes' = documentText bytes) : WorldsAlike (w.holding l bytes) (w.holding l bytes') := by
  have hsame : w.disk.AlikeBut ReadAlike w.disk := ⟨rfl, hn, hn, fun _ => .refl _ _ _⟩
  exact ⟨hsame.put (.inr ⟨bytes, bytes', rfl, rfl, h⟩), rfl, rfl⟩

end Holding

/-- **The way in which a document is written never matters.**  A text without carriage returns that does not begin with
a byte-order mark is read as it is from each of its six encodings.  Where a path leads to a file with one of them, the
document has the rank of its name and its text in every list of the entries of a folder; and writing its page comes to
the same result, log and list of pages from all of them, with the same octets in the new page. -/
theorem encoding_never_matters {t : Text} (hreturn : '\r' ∉ t) (hmark : t.head? ≠ some byteOrderMark) :
    (∀ e : Encoding, documentText (e.octets t) = t) ∧
      ∀ (w : World) (p : Path) (l : Location) (old : Octets), (Table.keys w.disk.entries).Nodup →
        w.disk.find p = .ok ⟨l, some (.file old)⟩ →
        (∀ e : Encoding, LeadsTo (w.holding l (e.octets t)).disk p t) ∧
        ∀ convert output relative label, ∃ result log written, ∀ e : Encoding,
          let run := writePage convert output p relative label (w.holding l (e.octets t))
          run.1 = result ∧ run.2.log = log ∧ run.2.written = written ∧
            ∀ slug, result = .ok slug → run.2.disk.read (targetPath output relative (Path.baseName p.name)) =
              .ok (encode (pageOf convert p label t)) := by
  have htext : ∀ e : Encoding, documentText (e.octets t) = t := fun e => documentText_octets e hreturn hmark
  refine ⟨htext, fun w p l old hn hf => ⟨fun e => ?_, fun convert output relative label => ?_⟩⟩
  · have hleads := leadsTo_of_read (read_holding hf (e.octets t))
    rwa [htext] at hleads
  · let first := writePage convert output p relative label (w.holding l (Encoding.octets ⟨false, .lineFeed⟩ t))
    refine ⟨first.1, first.2.log, first.2.written, fun e => ?_⟩
    intro run
    have hsame : documentText (e.octets t) = documentText (Encoding.octets ⟨false, .lineFeed⟩ t) := by
      rw [htext, htext]
    have halike := holding_alike hn l hsame
    obtain ⟨hresult, hworlds⟩ := (writePage_agrees_alike convert output p relative label _ _ halike).eq_and
    refine ⟨hresult.symm, hworlds.log, hworlds.written, fun slug hslug => ?_⟩
    have hrun : run = (.ok slug, run.2) := Prod.ext (hresult.symm.trans hslug) rfl
    have hpage := read_of_writePage (read_holding hf (e.octets t)) hrun
    rwa [htext] at hpage

/-- **A document with a title and a rank.** -/
def setupGuide : Text := "---\ntitle: Setup Guide\nsidebar_position: 1\n---\n\nBody\n".toList

/-- **A site with one file**, and nothing in it. -/
def emptyGuideSite : World where
  disk.entries := [(["docs".toList], .directory), (["docs", "setup.md"].map String.toList, .file [])]

theorem encoding_never_matters_setupGuide : '\r' ∉ setupGuide ∧ setupGuide.head? ≠ some byteOrderMark ∧
    (Table.keys emptyGuideSite.disk.entries).Nodup ∧
    rankShown "setup.md".toList setupGuide = Binary64.ofDecimal false 1 0 ∧ ∀ e : Encoding,
      let w := emptyGuideSite.holding (["docs", "setup.md"].map String.toList) (e.octets setupGuide)
      let run := writePage .standard (.word "out") (.word "docs/setup.md") [] none w
      LeadsTo w.disk (.word "docs/setup.md") setupGuide ∧ run.1 = .ok "setup".toList ∧
        run.2.disk.read (.word "out/setup.mdx") =
          .ok (encode "---\ntitle: \"Setup Guide\"\n---\n\nBody\n".toList) := by
  have hreturn : '\r' ∉ setupGuide := by decide
  have hmark : setupGuide.head? ≠ some byteOrderMark := by decide
  have hn : (Table.keys emptyGuideSite.disk.entries).Nodup := by decide
  obtain ⟨-, hall⟩ := encoding_never_matters hreturn hmark
  obtain ⟨hleads, hpages⟩ := hall emptyGuideSite (.word "docs/setup.md") (["docs", "setup.md"].map String.toList) [] hn
    (by decide)
  obtain ⟨result, log, written, hruns⟩ := hpages .standard (.word "out") [] none
  have hresult : result = .ok "setup".toList := by
    rw [← (hruns ⟨false, .lineFeed⟩).1]
    decide +kernel
  have htarget : targetPath (.word "out") [] (Path.baseName (Path.word "docs/setup.md").name) =
      .word "out/setup.mdx" := by decide
  have hshown : pageOf .standard (.word "docs/setup.md") none setupGuide =
      "---\ntitle: \"Setup Guide\"\n---\n\nBody\n".toList := by decide +kernel
  rw [htarget, hshown] at hruns
  refine ⟨hreturn, hmark, hn, by decide +kernel, fun e => ?_⟩
  obtain ⟨hrun, -, -, hpage⟩ := hruns e
  exact ⟨hleads e, hrun.trans hresult, hpage _ hresult⟩

end DocFerry.Site
