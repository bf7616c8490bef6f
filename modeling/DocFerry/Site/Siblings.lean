import DocFerry.Site.Category
/-!
# The order of siblings

The entries of a folder are shown by rank and then by name.  An entry named as an index page comes
first, a folder has the position in its metadata, and a page the rank in its own.

Main facts: sorting keeps every entry (`sorted_perm`), and in the sorted list no entry stands before
one that precedes it (`sorted_pairwise`).
-/
namespace DocFerry.Site

open Files

def indexFiles : List Text := ["index.md", "index.mdx", "README.md", "readme.md"].map String.toList

def pageExtensions : List Text := [".md", ".mdx"].map String.toList

/-- **A name with the extension of a page.** -/
def isPageName (name : Text) : Bool := pageExtensions.any (·.isSuffixOf name)

/-- **An entry of a folder** with its rank. -/
structure Sibling where
  name : Text
  path : Path
  isDirectory : Bool
  rank : Binary64
  deriving DecidableEq, Repr

namespace Sibling

def isPage (s : Sibling) : Bool := !s.isDirectory && isPageName s.name

/-- **Hidden files and metadata files**, which are no part of the site. -/
def isIgnored (s : Sibling) : Bool := s.name.head? == some '.' || s.name == categoryFile

/-- **At or before** in the order of characters. -/
def textLe : Text → Text → Bool
  | [], _ => true
  | _ :: _, [] => false
  | a :: s, b :: t => a.toNat < b.toNat || (a == b && textLe s t)

/-- **At or before** by rank, and at the same rank by name. -/
def le (a b : Sibling) : Bool := a.rank.lt b.rank || (a.rank.le b.rank && textLe a.name b.name)

/-- **An entry put before the first one that it does not follow.** -/
def insert (s : Sibling) : List Sibling → List Sibling
  | [] => [s]
  | t :: rest => if s.le t then s :: t :: rest else t :: insert s rest

/-- **Entries in order**; entries that tie stay as they are. -/
def sorted (l : List Sibling) : List Sibling := l.foldr insert []

theorem insert_perm (s : Sibling) (l : List Sibling) : (insert s l).Perm (s :: l) := by
  induction l with
  | nil => exact .refl _
  | cons t rest ih =>
    unfold insert
    split
    · exact .refl _
    · exact (ih.cons t).trans (.swap s t rest)

theorem sorted_perm (l : List Sibling) : (sorted l).Perm l := by
  induction l with
  | nil => exact .refl _
  | cons s rest ih => exact (insert_perm s _).trans (ih.cons s)

theorem textLe_total (s t : Text) : textLe s t = true ∨ textLe t s = true := by
  induction s generalizing t with
  | nil => exact .inl rfl
  | cons a s ih =>
    cases t with
    | nil => exact .inr rfl
    | cons b t =>
      simp only [textLe, Bool.or_eq_true, Bool.and_eq_true, decide_eq_true_eq, beq_iff_eq]
      rcases Nat.lt_trichotomy a.toNat b.toNat with h | h | h
      · exact .inl (.inl h)
      · have hab : a = b := Char.toNat_inj.1 h
        rcases ih t with ht | ht
        · exact .inl (.inr ⟨hab, ht⟩)
        · exact .inr (.inr ⟨hab.symm, ht⟩)
      · exact .inr (.inl h)

theorem textLe_trans {s t u : Text} (hst : textLe s t = true) (htu : textLe t u = true) :
    textLe s u = true := by
  induction s generalizing t u with
  | nil => rfl
  | cons a s ih =>
    cases t with
    | nil => simp [textLe] at hst
    | cons b t =>
      cases u with
      | nil => simp [textLe] at htu
      | cons c u =>
        simp only [textLe, Bool.or_eq_true, Bool.and_eq_true, decide_eq_true_eq, beq_iff_eq] at *
        rcases hst with h | ⟨rfl, h⟩
        · rcases htu with k | ⟨rfl, _⟩
          · exact .inl (by omega)
          · exact .inl h
        · rcases htu with k | ⟨rfl, k⟩
          · exact .inl k
          · exact .inr ⟨rfl, ih h k⟩

theorem le_total (a b : Sibling) : a.le b = true ∨ b.le a = true := by
  simp only [le, Binary64.lt, Binary64.le, Bool.or_eq_true, Bool.and_eq_true, decide_eq_true_eq]
  rcases textLe_total a.name b.name with h | h <;> simp only [h, and_true] <;> omega

theorem le_trans {a b c : Sibling} (hab : a.le b = true) (hbc : b.le c = true) : a.le c = true := by
  simp only [le, Binary64.lt, Binary64.le, Bool.or_eq_true, Bool.and_eq_true, decide_eq_true_eq] at *
  rcases hab with h | ⟨h, ha⟩
  · rcases hbc with k | ⟨k, _⟩ <;> exact .inl (by omega)
  · rcases hbc with k | ⟨k, hc⟩
    · exact .inl (by omega)
    · exact .inr ⟨by omega, textLe_trans ha hc⟩

theorem insert_pairwise {s : Sibling} {l : List Sibling} (h : l.Pairwise fun a b => a.le b = true) :
    (insert s l).Pairwise fun a b => a.le b = true := by
  induction l with
  | nil => simp [insert]
  | cons t rest ih =>
    unfold insert
    split
    · rename_i hst
      rw [List.pairwise_cons]
      refine ⟨fun b hb => ?_, h⟩
      rcases List.mem_cons.1 hb with rfl | hb
      · exact hst
      · exact le_trans hst ((List.pairwise_cons.1 h).1 b hb)
    · rename_i hst
      rw [List.pairwise_cons] at h ⊢
      refine ⟨fun b hb => ?_, ih h.2⟩
      rcases List.mem_cons.1 ((insert_perm s rest).mem_iff.1 hb) with rfl | hb
      · exact (le_total b t).resolve_left hst
      · exact h.1 b hb

/-- **In the sorted list each entry is at or before those after it.** -/
theorem sorted_pairwise (l : List Sibling) : (sorted l).Pairwise fun a b => a.le b = true := by
  induction l with
  | nil => exact .nil
  | cons s rest ih => exact insert_pairwise ih

end Sibling

def rankOf (d : Disk) (p : Path) (isDirectory : Bool) : Except Failure Binary64 :=
  if p.name ∈ indexFiles then .ok indexRank
  else if isDirectory then (Category.read d p).map fun c => c.position.getD defaultRank
  else if isPageName p.name then (documentRank d p).mapError .disk
  else .ok defaultRank

def siblingAt (d : Disk) (p : Path) : Except Failure Sibling := do
  let isDirectory ← (d.seekDirectory p).mapError .disk
  let rank ← rankOf d p isDirectory
  .ok ⟨p.name, p, isDirectory, rank⟩

/-- **Entries ranked**, in the order given. -/
def rankAll (d : Disk) : List Path → Except Failure (List Sibling)
  | [] => .ok []
  | p :: rest => do
    let s ← siblingAt d p
    let more ← rankAll d rest
    .ok (s :: more)

def ranked (d : Disk) (paths : List Path) : Except Failure (List Sibling) :=
  (rankAll d paths).map Sibling.sorted

/-- **The entries of a folder in order.** -/
def siblings (d : Disk) (directory : Path) : Except Failure (List Sibling) :=
  match d.list directory with
  | .ok names => ranked d (names.map directory.child)
  | .error problem => .error (.disk problem)

end DocFerry.Site
