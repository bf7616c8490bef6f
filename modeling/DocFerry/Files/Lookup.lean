import DocFerry.Files.Disk
/-!
# Finding what a path leads to

A path is walked name by name from its start; at a link the walk goes on along the link's target,
at most forty times.  A walk ends at a location with or without an entry, or fails because something
on the way is missing or is no directory.  A path that is too long or holds a null character is
refused before it is walked.

A path can also be settled, whether or not anything is there: then links are followed as often as it
takes, and only a link that leads back to itself stays as it is.

Main facts: walking a path of plain directories leads to the location of its names
(`walk_of_directories`), and on a disk without links a path settles where its text says
(`settle_of_no_links`).
-/
namespace DocFerry.Files

open Text.Utf8 (Octets)

inductive Problem where
  | missing
  /-- Something on the way, or the place itself, is no directory. -/
  | notDirectory
  /-- A directory stands where a file is wanted. -/
  | isDirectory
  | present
  /-- A directory is not empty. -/
  | notEmpty
  /-- The place cannot be changed in this way. -/
  | invalid
  /-- Links lead on without end. -/
  | linkLoop
  /-- Links lead on without end on the way to a path that is settled. -/
  | endlessLink (path : Path)
  /-- A name, or the path as a whole, is too long. -/
  | nameTooLong
  /-- The path holds a null character. -/
  | nullInPath
  /-- A tree is not removed through a link. -/
  | linkedTree
  /-- A file is not copied onto itself. -/
  | sameFile (source target : Path)
  /-- Some entries of a tree could not be copied. -/
  | incomplete
  /-- A tree is nested without end. -/
  | tooDeep
  deriving DecidableEq, Repr

/-- **The longest name** of an entry, in octets. -/
def longestName : Nat := 255

/-- **The longest path** that is looked up, in octets. -/
def longestPath : Nat := 4095

/-- **A text of more octets than allowed.** -/
def exceeds (limit : Nat) (s : Text) : Bool := limit < (Text.Utf8.encode s).length

/-- **Why a path is not looked up at all**, whatever is on the disk. -/
def refusal? (p : Path) : Option Problem :=
  if p.names.any (·.contains (Char.ofNat 0)) then some .nullInPath
  else if exceeds longestPath p.text then some .nameTooLong
  else none

/-- **Where a walk ends**: the location, and what is there, which is never a link. -/
structure Place where
  location : Location
  entry : Option Entry
  deriving DecidableEq, Repr

namespace Disk

/-- **A walk along names** from a directory; `atLink` says how it goes on at a link. -/
def walk (d : Disk) (atLink : Location → Text → List Text → Except Problem Place) :
    Location → List Text → Except Problem Place
  | base, [] => .ok ⟨base, some .directory⟩
  | base, name :: rest =>
    if name = Path.up then walk d atLink base.dropLast rest
    else
      match d.locate? (base ++ [name]) with
      | some .directory => walk d atLink (base ++ [name]) rest
      | some (.link target) => atLink base target rest
      | some (.file bytes) =>
        if rest.isEmpty then .ok ⟨base ++ [name], some (.file bytes)⟩ else .error .notDirectory
      | none =>
        if exceeds longestName name then .error .nameTooLong
        else if rest.isEmpty then .ok ⟨base ++ [name], none⟩
        else .error .missing

/-- **A walk that follows so many links.** -/
def walkLinks (d : Disk) : (links : Nat) → Location → List Text → Except Problem Place
  | 0 => d.walk fun _ _ _ => .error .linkLoop
  | links + 1 => d.walk fun base target rest =>
    let p := Path.ofText target
    walkLinks d links (if p.absolute then [] else base) (p.names ++ rest)

/-- **The most links that a walk follows.** -/
def maxLinks : Nat := 40

def start (d : Disk) (p : Path) : Location := if p.absolute then [] else d.here

def find (d : Disk) (p : Path) : Except Problem Place :=
  match refusal? p with
  | some problem => .error problem
  | none => d.walkLinks maxLinks (d.start p) p.names

/-- **The entry that a path leads to**, none if it leads nowhere. -/
def at? (d : Disk) (p : Path) : Option Entry :=
  match d.find p with
  | .ok place => place.entry
  | .error _ => none

def exists? (d : Disk) (p : Path) : Bool := (d.at? p).isSome

def isDirectory (d : Disk) (p : Path) : Bool := d.at? p == some .directory

/-- **The entry that a path leads to**, none if it leads nowhere; that a name is too long is told. -/
def seek (d : Disk) (p : Path) : Except Problem (Option Entry) :=
  match d.find p with
  | .ok place => .ok place.entry
  | .error .nameTooLong => .error .nameTooLong
  | .error _ => .ok none

def seekAny (d : Disk) (p : Path) : Except Problem Bool := (d.seek p).map Option.isSome

def seekDirectory (d : Disk) (p : Path) : Except Problem Bool := (d.seek p).map (· == some .directory)

/-- **The octets of the file that is there**, none if there is no file. -/
def seekFile (d : Disk) (p : Path) : Except Problem (Option Octets) :=
  (d.seek p).map fun
    | some (.file bytes) => some bytes
    | _ => none

/-- **The entry at a path itself**, which may be a link. -/
def entryAt? (d : Disk) (p : Path) : Option Entry :=
  match p.names.getLast? with
  | none => d.at? p
  | some name =>
    if name = Path.up then d.at? p
    else
      match d.find p.parent with
      | .ok ⟨l, some .directory⟩ => d.locate? (l ++ [name])
      | _ => none

def read (d : Disk) (p : Path) : Except Problem Octets :=
  match d.find p with
  | .ok ⟨_, some (.file bytes)⟩ => .ok bytes
  | .ok ⟨_, some _⟩ => .error .isDirectory
  | .ok ⟨_, none⟩ => .error .missing
  | .error problem => .error problem

def list (d : Disk) (p : Path) : Except Problem (List Text) :=
  match d.find p with
  | .ok ⟨l, some .directory⟩ => .ok (d.namesAt l)
  | .ok ⟨_, some _⟩ => .error .notDirectory
  | .ok ⟨_, none⟩ => .error .missing
  | .error problem => .error problem

/-- **The first path that a test accepts**; a test that fails ends the search. -/
def firstThat (test : Path → Except Problem Bool) : List Path → Except Problem (Option Path)
  | [] => .ok none
  | p :: rest => do if ← test p then return some p else firstThat test rest

/-- **A path found by its test** is accepted by it. -/
theorem firstThat_some {test : Path → Except Problem Bool} {places : List Path} {p : Path}
    (h : firstThat test places = .ok (some p)) : test p = .ok true := by
  induction places with
  | nil => simp [firstThat] at h
  | cons q rest ih =>
    rw [firstThat] at h
    rcases hq : test q with problem | b
    · simp [hq, bind, Except.bind] at h
    · cases b
      · exact ih (by simpa [hq, bind, Except.bind] using h)
      · simp only [hq, bind, Except.bind, if_true, pure, Except.pure, Except.ok.injEq,
          Option.some.injEq] at h
        exact h ▸ hq

/-! ## Settling -/

/-- **The links met so far**, and where each of them leads; none for those still being followed. -/
abbrev Met := Table Location (Option Location)

/-- **How far a path is settled**: the location, and whether it holds no link any more. -/
structure Settling where
  /-- The location; if a link is left, names leading up may follow it. -/
  location : Location
  complete : Bool
  deriving DecidableEq, Repr

/-- **A walk that only a loop of links stops**: a name without an entry, or below a file, is taken as
it is.  `follow` settles the target of a link. -/
def settleNames (d : Disk) (follow : Met → Location → Text → Settling × Met) :
    Met → Location → List Text → Settling × Met
  | met, base, [] => (⟨base, true⟩, met)
  | met, base, name :: rest =>
    if name = Path.up then settleNames d follow met base.dropLast rest
    else
      let next := base ++ [name]
      match d.locate? next with
      | some (.link target) =>
        match Table.get? next met with
        | some (some l) => settleNames d follow met l rest
        | some none => (⟨next ++ rest, false⟩, met)
        | none =>
          match follow (Table.set next none met) base target with
          | (⟨l, true⟩, met) => settleNames d follow (Table.set next (some l) met) l rest
          | (⟨l, false⟩, met) => (⟨l ++ rest, false⟩, met)
      | _ => settleNames d follow met next rest

/-- **The target of a link settled**, through so many links at once. -/
def settleTarget (d : Disk) : (links : Nat) → Met → Location → Text → Settling × Met
  | 0, met, base, target => (⟨base ++ (Path.ofText target).names, false⟩, met)
  | links + 1, met, base, target =>
    let p := Path.ofText target
    settleNames d (settleTarget d links) met (if p.absolute then [] else base) p.names

/-- **The location that names stand for** after another, by the names alone. -/
def locationAlong (l : Location) (names : List Text) : Location :=
  names.foldl (fun l name => if name = Path.up then l.dropLast else l ++ [name]) l

/-- **The location that a path stands for**, whether or not anything is there.  No more links than the
disk has are followed at once, because a link met while it is followed ends the walk. -/
def settle (d : Disk) (p : Path) : Location :=
  let (settling, _) := d.settleNames (d.settleTarget d.entries.length) [] (d.start p) p.names
  locationAlong [] settling.location

/-- **The location that a path stands for**, if its links come to an end. -/
def resolve (d : Disk) (p : Path) : Except Problem Location :=
  let l := d.settle p
  match refusal? p, d.find (.rooted l) with
  | some .nullInPath, _ => .error .nullInPath
  | _, .error .linkLoop => .error (.endlessLink (.rooted l))
  | _, _ => .ok l

/-- **Names leading nowhere up** are appended as they are. -/
theorem locationAlong_of_names (l : Location) {names : List Text} (h : Path.up ∉ names) :
    locationAlong l names = l ++ names := by
  induction names generalizing l with
  | nil => simp [locationAlong]
  | cons name rest ih =>
    simp only [List.mem_cons, not_or] at h
    rw [locationAlong, List.foldl_cons, if_neg fun e => h.1 e.symm]
    have := ih (l ++ [name]) h.2
    rw [locationAlong] at this
    rw [this]
    simp

theorem locationAlong_cons (l : Location) (name : Text) (rest : List Text) :
    locationAlong l (name :: rest) =
      locationAlong (if name = Path.up then l.dropLast else l ++ [name]) rest := rfl

theorem settleNames_of_no_links {d : Disk} (follow : Met → Location → Text → Settling × Met)
    (h : ∀ l target, d.locate? l ≠ some (.link target)) (met : Met) (base : Location)
    (names : List Text) :
    d.settleNames follow met base names = (⟨locationAlong base names, true⟩, met) := by
  induction names generalizing base with
  | nil => rfl
  | cons name rest ih =>
    rw [locationAlong_cons]
    unfold settleNames
    split
    · exact ih _
    · dsimp only
      split
      · rename_i target heq
        exact absurd heq (h _ _)
      · exact ih _

theorem up_not_mem_locationAlong {l : Location} (hl : Path.up ∉ l) (names : List Text) :
    Path.up ∉ locationAlong l names := by
  induction names generalizing l with
  | nil => exact hl
  | cons name rest ih =>
    rw [locationAlong_cons]
    split
    · exact ih fun h => hl (List.dropLast_subset l h)
    · rename_i hup
      refine ih fun h => ?_
      rcases List.mem_append.1 h with h | h
      · exact hl h
      · exact hup (List.mem_singleton.1 h).symm

/-- **On a disk without links** a path settles where its text says. -/
theorem settle_of_no_links {d : Disk} (h : ∀ l target, d.locate? l ≠ some (.link target)) (p : Path)
    (hs : Path.up ∉ d.start p) : d.settle p = locationAlong (d.start p) p.names := by
  simp only [settle, settleNames_of_no_links _ h]
  rw [locationAlong_of_names [] (up_not_mem_locationAlong hs p.names), List.nil_append]

/-- **Walking plain directories** leads to the location of the names walked. -/
theorem walk_of_directories (d : Disk)
    (atLink : Location → Text → List Text → Except Problem Place) (base : Location)
    (names : List Text) (hup : Path.up ∉ names)
    (h : ∀ k, 0 < k → k ≤ names.length → d.locate? (base ++ names.take k) = some .directory) :
    d.walk atLink base names = .ok ⟨base ++ names, some .directory⟩ := by
  induction names generalizing base with
  | nil => simp [walk]
  | cons name rest ih =>
    have hname : name ≠ Path.up := fun e => hup (by simp [e])
    have hfirst := h 1 (by omega) (by simp)
    simp only [List.take_succ_cons, List.take_zero] at hfirst
    rw [walk, if_neg hname, hfirst]
    simp only
    rw [ih (base ++ [name]) (fun hm => hup (by simp [hm]))]
    · simp
    · intro k hk hl
      have := h (k + 1) (by omega) (by simpa using hl)
      simpa using this

end Disk
end DocFerry.Files
