import DocFerry.Proofs.Files.Names
import DocFerry.Proofs.Files.Tree
import DocFerry.Site.Assemble
/-!
# The documents of a site

What a site's documents are, in which order they come and what each of them becomes, read off the disk without
a walk.  A document is named by its address: the names from the root of the documents on.

Main facts: the documents below a folder are those below its entries (`isDocument_cons`), and no document
precedes itself (`precedes_irrefl`), so documents in order are listed once (`nodup_of_precedes`).
-/
namespace DocFerry.Site

open Files Nav
open Text.Utf8 (Octets)

/-- **Where a document is**: the names from a folder on. -/
abbrev Address := List Text

/-- **The folders on the way.** -/
def Address.folders (a : Address) : List Text := a.dropLast

/-- **The name of the file.** -/
def Address.file (a : Address) : Text := a.getLast?.getD []

/-- **A name that hides an entry**: a dot in front, or the name of a folder's metadata. -/
def isHidden (name : Text) : Bool := name.head? == some '.' || name == categoryFile

/-- **A document below a folder**: a file with the extension of a page, neither hidden nor below a folder that
is hidden. -/
structure IsDocument (d : Disk) (l : Location) (a : Address) : Prop where
  file : ∃ bytes, d.locate? (l ++ a) = some (.file bytes)
  shown : ∀ name ∈ a, isHidden name = false
  page : isPageName a.file = true

/-- **A source document**: a document that is not below the folder of shared partial pages. -/
structure IsSource (d : Disk) (l : Location) (a : Address) : Prop extends IsDocument d l a where
  shared : ∀ name ∈ a.folders.head?, Text.lower name ≠ partialsFolder

/-! ## Order -/

/-- **The octets of a file**, none for anything else. -/
def octetsAt (d : Disk) (l : Location) : Octets :=
  match d.locate? l with
  | some (.file bytes) => bytes
  | _ => []

/-- **The metadata of a folder**, without what is ill formed. -/
def categoryAt (d : Disk) (l : Location) : Category :=
  match d.locate? (l ++ [categoryFile]) with
  | some (.file bytes) => (Category.ofBytes bytes).toOption.getD {}
  | _ => {}

/-- **The rank of an entry of a folder.** -/
def rankAt (d : Disk) (l : Location) (name : Text) : Binary64 :=
  if name ∈ indexFiles then indexRank
  else
    match d.locate? (l ++ [name]) with
    | some .directory => (categoryAt d (l ++ [name])).position.getD defaultRank
    | some (.file bytes) => if isPageName name then rankInText (documentText bytes) else defaultRank
    | _ => defaultRank

/-- **The order of two entries of a folder**: by rank, and at the same rank by name. -/
def ComesBefore (d : Disk) (l : Location) (name other : Text) : Prop :=
  name ≠ other ∧ ((rankAt d l name).lt (rankAt d l other) = true ∨
    (rankAt d l name).le (rankAt d l other) = true ∧ Sibling.textLe name other = true)

/-- **The order of documents**: depth first, by the entries where their addresses part. -/
def Precedes (d : Disk) : Location → Address → Address → Prop
  | l, name :: rest, other :: rest' =>
    if name = other then Precedes d (l ++ [name]) rest rest' else ComesBefore d l name other
  | _, _, _ => False

/-! ## What documents become -/

/-- **The label of a folder**: its own, if it is not blank, or the label of its name. -/
def labelAt (d : Disk) (l : Location) : Text :=
  (categoryAt d l).label.getD (Text.titleCase (l.getLast?.getD []))

/-- **The label of the group that lists a document.** -/
def groupLabelOf (d : Disk) (l : Location) (a : Address) : Text :=
  if a.folders = [] then gettingStartedLabel else labelAt d (l ++ a.folders)

/-- **What the converter is given for a document.** -/
def requestAt (d : Disk) (l : Location) (a : Address) : Request where
  raw := documentText (octetsAt d (l ++ a))
  context := ⟨Path.baseName a.file, isIndexName (Path.baseName a.file), some (groupLabelOf d l a)⟩

/-- **The names of the new page** below the output folder. -/
def Address.target (a : Address) : List Text := a.folders ++ [Path.baseName a.file ++ newExtension]

/-- **The path of the new page.** -/
def targetAt (output : Path) (a : Address) : Path := output.descend a.target

/-- **What is written for a document.** -/
def emissionAt (d : Disk) (l : Location) (output : Path) (a : Address) : Emission := ⟨targetAt output a, requestAt d l a⟩

/-! ## Small laws -/

theorem not_isDocument_nil (d : Disk) (l : Location) : ¬ IsDocument d l [] := by
  intro h
  exact absurd h.page (by decide)

/-- **The documents below a folder** are its pages, and the documents below its subfolders. -/
theorem isDocument_cons {d : Disk} {l : Location} {name : Text} {rest : Address} :
    IsDocument d l (name :: rest) ↔ isHidden name = false ∧
      if rest = [] then (∃ bytes, d.locate? (l ++ [name]) = some (.file bytes)) ∧ isPageName name = true
      else IsDocument d (l ++ [name]) rest := by
  have hfile : rest ≠ [] → Address.file (name :: rest) = Address.file rest := by
    intro hr
    obtain ⟨next, rest, rfl⟩ := List.exists_cons_of_ne_nil hr
    simp [Address.file, List.getLast?_cons_cons]
  constructor
  · intro h
    refine ⟨h.shown name List.mem_cons_self, ?_⟩
    split
    · rename_i hr
      subst hr
      exact ⟨h.file, by simpa [Address.file] using h.page⟩
    · rename_i hr
      refine ⟨?_, fun n hn => h.shown n (List.mem_cons_of_mem _ hn), hfile hr ▸ h.page⟩
      simpa using h.file
  · rintro ⟨hname, h⟩
    split at h
    · rename_i hr
      subst hr
      exact ⟨h.1, by simpa using hname, by simpa [Address.file] using h.2⟩
    · rename_i hr
      refine ⟨by simpa using h.file, fun n hn => ?_, (hfile hr).symm ▸ h.page⟩
      rcases List.mem_cons.1 hn with rfl | hn
      · exact hname
      · exact h.shown n hn

theorem precedes_irrefl (d : Disk) : ∀ (l : Location) (a : Address), ¬ Precedes d l a a
  | _, [] => by simp [Precedes]
  | l, name :: rest => by simpa [Precedes] using precedes_irrefl d (l ++ [name]) rest

theorem nodup_of_precedes {d : Disk} {l : Location} {addresses : List Address}
    (h : addresses.Pairwise (Precedes d l)) : addresses.Nodup := by
  refine List.Pairwise.imp (fun {a b} hp => ?_) h
  rintro rfl
  exact precedes_irrefl d l a hp

end DocFerry.Site
